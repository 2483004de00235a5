import CourseRegistration.Registry.Basic
import CourseRegistration.Snapshot.Basic

/-!
# Building a registry

A registry is built from a snapshot that is consistent: no department, section or student is
listed twice, every section has a listed department and possible hours and room for its students,
and students and rosters agree on who holds what.

The two sides are compared by claims.  Each place on a roster raises a claim, each held course
settles one, and in the end no claim may be left.
-/

namespace CourseRegistration

/-- Why a snapshot does not make a registry. -/
inductive Defect where
  /-- Two departments have one number. -/
  | duplicateDepartment (department : DepartmentId)
  /-- The department of a section is not listed. -/
  | unknownDepartment (key : SectionKey) (department : DepartmentId)
  /-- Two sections have one key. -/
  | duplicateSection (key : SectionKey)
  /-- A section has impossible hours. -/
  | impossibleHours (key : SectionKey) (why : HoursError)
  /-- A section has more students than places. -/
  | overfullSection (key : SectionKey)
  /-- Two students have one number. -/
  | duplicateStudent (student : StudentId)
  /-- A student holds a section that is not listed. -/
  | unknownSection (student : StudentId) (key : SectionKey)
  /-- A student and the roster of a section disagree. -/
  | rosterMismatch (student : StudentId) (key : SectionKey)
  deriving DecidableEq

/-- The message for people. -/
def Defect.message : Defect → String
  | duplicateDepartment department => "department " ++ department.text ++ " is listed twice"
  | unknownDepartment key department =>
    "section " ++ key.text ++ " belongs to unknown department " ++ department.text
  | duplicateSection key => "section " ++ key.text ++ " is listed twice"
  | impossibleHours key why =>
    "section " ++ key.text ++ " has an invalid schedule: " ++ why.message
  | overfullSection key =>
    "section " ++ key.text ++ " holds more students than its capacity and reserve"
  | duplicateStudent student => "student " ++ student.text ++ " is listed twice"
  | unknownSection student key =>
    "student " ++ student.text ++ " holds unknown section " ++ key.text
  | rosterMismatch student key =>
    "student " ++ student.text ++ " and the roster of " ++ key.text ++ " disagree"

namespace Snapshot

/-- Places on rosters that no held course has been found for. -/
abbrev Claims := OrderedSet SeatClaim

/-! ## Departments -/

/-- Adds a department that is not listed yet. -/
def addDepartment (departments : OrderedMap DepartmentId String) (d : StoredDepartment) :
    Except Defect (OrderedMap DepartmentId String) :=
  if departments.contains d.id then .error (.duplicateDepartment d.id)
  else .ok (departments.insert d.id d.name)

/-! ## Sections -/

/-- The hours of a stored section. -/
def StoredSection.weekly (s : StoredSection) : Except Defect WeeklyHours :=
  match s.hours with
  | none => .ok .unscheduled
  | some hours =>
    match hours.toWeekly with
    | .ok weekly => .ok weekly
    | .error why => .error (.impossibleHours s.key why)

/-- The section of a stored section, with nobody in it. -/
def StoredSection.vacant (s : StoredSection) (hours : WeeklyHours) : Section where
  key := s.key
  department := s.department
  lecturer := s.lecturer
  units := s.units
  examTime := s.examTime.getD 0
  hours := hours
  lock := s.lock
  seats := .vacant s.capacity s.reserve

/-- Seats the listed students in turn and raises their claims. -/
def seatAll (s : Section) (claims : Claims) : List StudentId → Except Defect (Section × Claims)
  | [] => .ok (s, claims)
  | student :: rest =>
    if (⟨student, s.key⟩ : SeatClaim) ∈ claims then .error (.rosterMismatch student s.key)
    else
      match s.seat student with
      | (none, _) => .error (.overfullSection s.key)
      | (some _, s') => seatAll s' (claims.insert ⟨student, s.key⟩) rest

/-- The sections built so far, and the claims of everyone in them. -/
structure Sections where
  byKey : OrderedMap SectionKey Section
  /-- The claims of everyone who has a place in them. -/
  claims : Claims

/-- Adds a section whose key is not listed yet. -/
def addSection (departments : OrderedMap DepartmentId String) (built : Sections)
    (s : StoredSection) : Except Defect Sections := do
  if built.byKey.contains s.key then throw (.duplicateSection s.key)
  if !departments.contains s.department then throw (.unknownDepartment s.key s.department)
  let hours ← s.weekly
  let (made, claims) ← seatAll (s.vacant hours) built.claims s.students
  return ⟨built.byKey.insert s.key made, claims⟩

/-! ## Students -/

/-- The courses, units and unsettled claims after some of a student's held courses. -/
structure Holdings where
  courses : OrderedMap CourseId GroupId
  units : UInt16
  claims : Claims

/-- Settles the claim of one held course. -/
def addHeld (sections : OrderedMap SectionKey Section) (student : StudentId) (h : Holdings)
    (key : SectionKey) : Except Defect Holdings :=
  match sections.get? key with
  | none => .error (.unknownSection student key)
  | some s =>
    if h.courses.contains key.course || (⟨student, key⟩ : SeatClaim) ∉ h.claims then
      .error (.rosterMismatch student key)
    else
      .ok ⟨h.courses.insert key.course key.group, Student.addUnits h.units s.units,
        h.claims.erase ⟨student, key⟩⟩

/-- The students built so far, and the claims that are left. -/
structure Students where
  byId : OrderedMap StudentId Student
  claims : Claims

/-- Adds a student whose number is not listed yet. -/
def addStudent (sections : OrderedMap SectionKey Section) (built : Students) (s : StoredStudent) :
    Except Defect Students := do
  if built.byId.contains s.id then throw (.duplicateStudent s.id)
  let h ← s.courses.foldlM (addHeld sections s.id) ⟨.empty, 0, built.claims⟩
  let made : Student :=
    { id := s.id
      gender := s.gender
      windowStart := s.windowStart
      maxUnits := s.maxUnits
      units := h.units
      actions := s.actions
      courses := h.courses }
  return ⟨built.byId.insert s.id made, h.claims⟩

/-! ## Registries -/

/-- The registry of a snapshot, or the first thing found wrong with it.  Of claims that are left
the least is reported. -/
def build (s : Snapshot) : Except Defect Registry := do
  let departments ← s.departments.foldlM addDepartment .empty
  let sections ← s.sections.foldlM (addSection departments) ⟨.empty, .empty⟩
  let students ← s.students.foldlM (addStudent sections.byKey) ⟨.empty, sections.claims⟩
  match students.claims.items with
  | [] => return ⟨departments, .ofSections sections.byKey.values, students.byId⟩
  | claim :: _ => throw (.rosterMismatch claim.student claim.key)

end Snapshot

end CourseRegistration
