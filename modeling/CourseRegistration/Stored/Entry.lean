import CourseRegistration.Journal.Entry
import CourseRegistration.Stored.Basic

/-!
# Stored journal entries

An entry is stored as an object whose member `action` names the kind of change, among the members
that hold its data; or as an array that begins with the name.  The kind decides which members are
data: members with other names are skipped, so `group` may stand in an entry that gives up a
place.

All of an entry is looked at before its kind is known.  So every literal in it must denote a text,
every number in it must be finite, and arrays and objects must not be nested deeper than
`Json.nestingLimit`, in its skipped members too.
-/

namespace CourseRegistration

open Json

/-- How deep arrays and objects may be nested in a text that is read as an entry. -/
def Json.nestingLimit : Nat := 127

namespace Journal

/-! ## Kinds -/

/-- The kinds of entries. -/
inductive Kind where
  | enroll
  | drop
  | switchGroup
  | resize
  deriving DecidableEq

namespace Kind

/-- The stored name of a kind. -/
def name : Kind → String
  | enroll => "enroll"
  | drop => "disenroll"
  | switchGroup => "change_group"
  | resize => "update_capacity"

/-- The kind of a stored name. -/
def ofName? (s : String) : Option Kind :=
  if s = "enroll" then some enroll
  else if s = "disenroll" then some drop
  else if s = "change_group" then some switchGroup
  else if s = "update_capacity" then some resize
  else none

@[simp] theorem ofName?_name (k : Kind) : ofName? k.name = some k := by
  cases k <;> rfl

/-- The stored names of the data of an entry, in order. -/
def fieldNames : Kind → List String
  | enroll => ["student", "course", "group", "reserved"]
  | drop => ["student", "course"]
  | switchGroup => ["student", "course", "group"]
  | resize => ["course", "group", "new_capacity", "promoted"]

end Kind

/-! ## Writing -/

/-- The kind of an entry. -/
def Entry.kind : Entry → Kind
  | enroll .. => .enroll
  | drop .. => .drop
  | switchGroup .. => .switchGroup
  | resize .. => .resize

/-- The data of an entry by name. -/
def Entry.fields : Entry → Fields
  | enroll student key waitlisted =>
    [("student", encode student), ("course", encode key.course), ("group", encode key.group),
      ("reserved", encode waitlisted)]
  | drop student course => [("student", encode student), ("course", encode course)]
  | switchGroup student destination =>
    [("student", encode student), ("course", encode destination.course),
      ("group", encode destination.group)]
  | resize key capacity promoted =>
    [("course", encode key.course), ("group", encode key.group),
      ("new_capacity", encode capacity), ("promoted", encode promoted)]

/-- The stored form of an entry. -/
def Entry.toJson (e : Entry) : Json :=
  .ofMembers (("action", text e.kind.name) :: e.fields)

/-! ## Reading -/

/-- The key of the section that a record names by course and group. -/
def sectionKey? (fields : Fields) : Option SectionKey := do
  return ⟨← fields.required "course", ← fields.required "group"⟩

/-- The entry of a kind with the given data. -/
def Entry.ofFields? (kind : Kind) (fields : Fields) : Option Entry :=
  match kind with
  | .enroll => do
    return .enroll (← fields.required "student") (← sectionKey? fields)
      (← fields.required "reserved")
  | .drop => do
    return .drop (← fields.required "student") (← fields.required "course")
  | .switchGroup => do
    return .switchGroup (← fields.required "student") (← sectionKey? fields)
  | .resize => do
    return .resize (← sectionKey? fields) (← fields.required "new_capacity")
      (← fields.required "promoted")

/-- Whether a member is called `action`. -/
def isAction (member : Literal × Json) : Bool :=
  member.1 = some "action"

/-- The kind of a stored entry, and the record of its data. -/
def taggedRecord? : Json → Option (Kind × Json)
  | .object members =>
    match members.filter isAction with
    | [(_, .string (some name))] =>
      (Kind.ofName? name).map fun kind =>
        (kind, .object (members.filter fun m => !isAction m))
    | _ => none
  | .array (.string (some name) :: items) =>
    (Kind.ofName? name).map fun kind => (kind, .array items)
  | _ => none

/-- Reads an entry that stands inside `depth` arrays and objects. -/
def Entry.ofJson? (depth : Nat) (j : Json) : Option Entry :=
  if j.isPlain (nestingLimit - depth) then do
    let (kind, data) ← taggedRecord? j
    let fields ← record? kind.fieldNames data
    Entry.ofFields? kind fields
  else none

instance : Coded Entry where
  encode := Entry.toJson
  decode? := Entry.ofJson? 0

/-! ## Records -/

/-- The stored names of the parts of a record, in order. -/
def Record.fieldNames : List String := ["department", "intent"]

instance : Coded Record where
  encode r := .ofMembers [("department", encode r.department), ("intent", encode r.entry)]
  decode? j := do
    let fields ← record? Record.fieldNames j
    return ⟨← fields.required "department", ← (fields.lookup "intent").bind (Entry.ofJson? 1)⟩

end Journal

end CourseRegistration
