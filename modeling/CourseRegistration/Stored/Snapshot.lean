import CourseRegistration.Document
import CourseRegistration.Json.Reader
import CourseRegistration.Json.Writer
import CourseRegistration.Snapshot.Basic
import CourseRegistration.Stored.Basic

/-!
# Stored snapshots

The text of a snapshot is a JSON record of three lists.  Lists that are not given are empty.  A
section that gives no lecturer, reserve, exam, hours, lock or students has an empty name, no
reserve, no exam, no hours, no lock and no students; a student that gives no courses has none.
-/

namespace CourseRegistration

open Json

/-- The stored names of the parts of a held section, in order. -/
def SectionKey.fieldNames : List String := ["course_id", "group_id"]

instance : Coded SectionKey where
  encode k := .ofMembers [("course_id", encode k.course), ("group_id", encode k.group)]
  decode? j := do
    let fields ← record? SectionKey.fieldNames j
    return ⟨← fields.required "course_id", ← fields.required "group_id"⟩

namespace Snapshot

/-- The stored names of the parts of a department, in order. -/
def StoredDepartment.fieldNames : List String := ["id", "name"]

instance : Coded StoredDepartment where
  encode d := .ofMembers [("id", encode d.id), ("name", encode d.name)]
  decode? j := do
    let fields ← record? StoredDepartment.fieldNames j
    return ⟨← fields.required "id", ← fields.required "name"⟩

/-- The stored names of the parts of a section, in order. -/
def StoredSection.fieldNames : List String :=
  ["course_id", "group_id", "department", "lecturer", "units", "capacity", "reserve_capacity",
    "exam_time", "schedule", "gender_lock", "students"]

instance : Coded StoredSection where
  encode s := .ofMembers
    [("course_id", encode s.key.course), ("group_id", encode s.key.group),
      ("department", encode s.department), ("lecturer", encode s.lecturer),
      ("units", encode s.units), ("capacity", encode s.capacity),
      ("reserve_capacity", encode s.reserve), ("exam_time", encode s.examTime),
      ("schedule", encode s.hours), ("gender_lock", encode s.lock),
      ("students", encode s.students)]
  decode? j := do
    let fields ← record? StoredSection.fieldNames j
    return {
      key := ⟨← fields.required "course_id", ← fields.required "group_id"⟩
      department := ← fields.required "department"
      lecturer := ← fields.optional "lecturer" ""
      units := ← fields.required "units"
      capacity := ← fields.required "capacity"
      reserve := ← fields.optional "reserve_capacity" 0
      examTime := ← fields.optional "exam_time" none
      hours := ← fields.optional "schedule" none
      lock := ← fields.optional "gender_lock" .unlocked
      students := ← fields.optional "students" [] }

/-- The stored names of the parts of a student, in order. -/
def StoredStudent.fieldNames : List String :=
  ["id", "enrollment_start", "max_units", "remaining_actions", "gender", "courses"]

instance : Coded StoredStudent where
  encode s := .ofMembers
    [("id", encode s.id), ("enrollment_start", encode s.windowStart),
      ("max_units", encode s.maxUnits), ("remaining_actions", encode s.actions),
      ("gender", encode s.gender), ("courses", encode s.courses)]
  decode? j := do
    let fields ← record? StoredStudent.fieldNames j
    return {
      id := ← fields.required "id"
      windowStart := ← fields.required "enrollment_start"
      maxUnits := ← fields.required "max_units"
      actions := ← fields.required "remaining_actions"
      gender := ← fields.required "gender"
      courses := ← fields.optional "courses" [] }

/-- The stored names of the parts of a snapshot, in order. -/
def fieldNames : List String := ["departments", "sections", "students"]

instance : Coded Snapshot where
  encode s := .ofMembers
    [("departments", encode s.departments), ("sections", encode s.sections),
      ("students", encode s.students)]
  decode? j := do
    let fields ← record? fieldNames j
    return ⟨← fields.optional "departments" [], ← fields.optional "sections" [],
      ← fields.optional "students" []⟩

/-- The snapshot of a JSON text. -/
def ofText? (text : String) : Option Snapshot :=
  (read? text).bind decode?

/-- Why there is no snapshot in a document. -/
inductive ReadError where
  /-- The document cannot be read. -/
  | unreadable (why : Unreadable)
  /-- The text is not that of a snapshot. -/
  | malformed
  deriving DecidableEq

/-- The message for people; malformed text has none of its own. -/
def ReadError.message : ReadError → String
  | unreadable why => "could not read the snapshot: " ++ why.message
  | malformed => "could not parse the snapshot"

/-- The snapshot that a document holds. -/
def load (d : Document) : Except ReadError Snapshot :=
  match d.read with
  | .error why => .error (.unreadable why)
  | .ok text =>
    match ofText? text with
    | some s => .ok s
    | none => .error .malformed

/-- The JSON text of a snapshot. -/
def toText (s : Snapshot) : String :=
  (encode s).toText

end Snapshot

end CourseRegistration
