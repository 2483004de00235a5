import CourseRegistration.Registry.Basic

/-!
# Workflows

What students and staff may ask for.  A workflow checks the rules one after the other on the
present registry, and the first rule that is broken is the answer.  If none is, it comes down to
the move of one place, and the student's holdings change together with the seats.

Students' own workflows look at the window first.  Staff may enroll a student, or drop a course for
one, at any time, and pay no attention to units, conflicts, capacity or actions.
-/

namespace CourseRegistration.Registry

open Check

/-! ## Rules -/

/-- The section's units on top of the student's total, which must fit its word. -/
def totalWith (total : UInt16) (units : UInt8) : Check UInt16 :=
  match Student.addUnits? total units with
  | some sum => .ok sum
  | none => .error .overflow

/-- Checks that none of the held sections leaves no room for the wanted one.  The first conflict
is reported, exams before hours. -/
def checkClashes (r : Registry) (student : StudentId) (wanted : Section) :
    List SectionKey → Check Unit
  | [] => .ok ()
  | key :: rest => do
    let (_, held) ← r.heldSection student key
    if examsClash held.examTime wanted.examTime then
      .error (.failed (.examClash key) [.examClash student key wanted.key])
    else if held.hours.overlaps wanted.hours then
      .error (.failed (.hoursClash key) [.hoursClash student key wanted.key])
    else r.checkClashes student wanted rest

/-! ## Students' workflows -/

/-- The student takes a place in a section. -/
def enroll (r : Registry) (now : Instant) (id : StudentId) (key : SectionKey) :
    Check (Plan Registry Unit) := do
  let student ← r.student id
  require (student.windowOpen now) .outsideWindow
  let (ref, wanted) ← r.offered key
  require (wanted.lock.admits student.gender) .genderLocked
  let units ← totalWith student.units wanted.units
  require (units ≤ student.maxUnits) .unitLimitReached
  require (!student.holdsCourse key.course) .alreadyHeld
  r.checkClashes id wanted student.held
  let plan ← wanted.grant id
  require plan.answer.isSome .noPlaceLeft
  return (r.atSection ref plan).settle (student.hold key units)

/-- The student lets go of a held course; `after` is what else happens to the student. -/
def releaseCourse (r : Registry) (student : Student) (course : CourseId)
    (after : Student → Student) : Check (Plan Registry Unit) := do
  let group ← expect (student.courses.get? course) .unknownSection
  let (ref, held) ← r.heldSection student.id ⟨course, group⟩
  let plan ← held.release student.id
  return (r.atSection ref plan).settle (after (student.letGo course held.units))

/-- The student gives up a course, which costs an action. -/
def drop (r : Registry) (now : Instant) (id : StudentId) (course : CourseId) :
    Check (Plan Registry Unit) := do
  let student ← r.student id
  require (student.windowOpen now) .outsideWindow
  require (student.actions != 0) .noActionsLeft
  r.releaseCourse student course Student.spendAction

/-- The student moves to another group of a held course, which costs an action. -/
def switchGroup (r : Registry) (now : Instant) (id : StudentId) (key : SectionKey) :
    Check (Plan Registry Unit) := do
  let student ← r.student id
  require (student.windowOpen now) .outsideWindow
  require (student.actions != 0) .noActionsLeft
  let group ← expect (student.courses.get? key.course) .unknownSection
  require (group != key.group) .sameGroup
  let (ref, source) ← r.heldSection id ⟨key.course, group⟩
  let (ref', destination) ← r.offered key
  require (destination.lock.admits student.gender) .genderLocked
  let total ← totalWith student.units destination.units
  let units := Student.subUnits total source.units
  require (destination.units ≤ source.units || units ≤ student.maxUnits) .unitLimitReached
  r.checkClashes id destination (student.held.filter fun k => k.course != key.course)
  let plan ← source.transfer destination id
  require plan.answer .noPlaceLeft
  return (r.atSections ref ref' plan).settle (student.hold key units).spendAction

/-! ## Staff workflows -/

/-- Staff enroll the student; a full section grows by a seat. -/
def staffEnroll (r : Registry) (id : StudentId) (key : SectionKey) :
    Check (Plan Registry Unit) := do
  let student ← r.student id
  let (ref, wanted) ← r.offered key
  require (!student.holdsCourse key.course) .alreadyHeld
  let plan ← wanted.grantByForce id
  let units := Student.addUnits student.units wanted.units
  return (r.atSection ref plan).settle (student.hold key units)

/-- Staff drop a course for the student. -/
def staffDrop (r : Registry) (id : StudentId) (course : CourseId) :
    Check (Plan Registry Unit) := do
  let student ← r.student id
  r.releaseCourse student course fun s => s

/-- Staff change the capacity of a section. -/
def resize (r : Registry) (ref : Catalog.Ref) (s : Section) (capacity : UInt64) :
    Check (Plan Registry (List StudentId)) := do
  return r.atSection ref (← s.resize capacity)

end CourseRegistration.Registry
