import CourseRegistration.Json.Value

/-!
# Coded values

A type is coded if its values are written as JSON values and read back from them.  This file has
the scalar codings, lists and options, and the rules by which records are read:

* An object gives each field by name, in any order.  A field may not be given twice; members with
  other names are skipped.
* An array gives the fields in their fixed order.  It may be short, never long; so it is read as
  the object that names its items.
* A field that is not given takes its default, or is missed if it has none.

Integers are read from integer tokens within the range of their type only.
-/

namespace CourseRegistration.Json

/-- Types whose values are written as JSON and read back. -/
class Coded (α : Type) where
  /-- The JSON value that stands for a value. -/
  encode : α → Json
  /-- The value that a JSON value stands for. -/
  decode? : Json → Option α

export Coded (encode decode?)

/-! ## Scalars -/

/-- The integer of an integer token between two bounds. -/
def intBetween? (low high : Int) : Json → Option Int
  | .number (.integer n) => if low ≤ n ∧ n ≤ high then some n else none
  | _ => none

instance : Coded UInt8 where
  encode n := int n.toNat
  decode? j := (intBetween? 0 255 j).map fun n => UInt8.ofNat n.toNat

instance : Coded UInt16 where
  encode n := int n.toNat
  decode? j := (intBetween? 0 65535 j).map fun n => UInt16.ofNat n.toNat

instance : Coded UInt32 where
  encode n := int n.toNat
  decode? j := (intBetween? 0 4294967295 j).map fun n => UInt32.ofNat n.toNat

instance : Coded UInt64 where
  encode n := int n.toNat
  decode? j := (intBetween? 0 18446744073709551615 j).map fun n => UInt64.ofNat n.toNat

instance : Coded Int32 where
  encode n := int n.toInt
  decode? j := (intBetween? (-2147483648) 2147483647 j).map Int32.ofInt

instance : Coded Int64 where
  encode n := int n.toInt
  decode? j := (intBetween? (-9223372036854775808) 9223372036854775807 j).map Int64.ofInt

instance : Coded Bool where
  encode := .bool
  decode?
    | .bool b => some b
    | _ => none

instance : Coded String where
  encode := text
  decode?
    | .string s => s
    | _ => none

/-! ## Lists and options -/

instance {α : Type} [Coded α] : Coded (List α) where
  encode l := .array (l.map encode)
  decode?
    | .array items => items.mapM decode?
    | _ => none

/-- An absent value is written `null`. -/
instance {α : Type} [Coded α] : Coded (Option α) where
  encode
    | none => .null
    | some a => encode a
  decode?
    | .null => some none
    | j => (decode? j).map some

/-! ## Named alternatives -/

/-- The name of an alternative: a string, or an object that gives the name with `null`. -/
def alternativeName? : Json → Option String
  | .string s => s
  | .object [(name, .null)] => name
  | _ => none

/-! ## Records -/

/-- The named values of a record. -/
abbrev Fields := List (String × Json)

/-- The members of an object as named values; every name must denote a text. -/
def namedMembers? (members : List (Literal × Json)) : Option Fields :=
  members.mapM fun (name, value) => name.map fun n => (n, value)

/-- Whether none of `names` is given twice. -/
def Fields.givesOnce (fields : Fields) (names : List String) : Bool :=
  names.all fun n => fields.countP (fun f => f.1 = n) ≤ 1

/-- The values that a record gives to the fields called `names`. -/
def record? (names : List String) : Json → Option Fields
  | .object members =>
    (namedMembers? members).bind fun fields => if fields.givesOnce names then some fields else none
  | .array items => if items.length ≤ names.length then some (names.zip items) else none
  | _ => none

namespace Fields

/-- The value of a field that must be given. -/
def required {α : Type} [Coded α] (fields : Fields) (name : String) : Option α :=
  (fields.lookup name).bind decode?

/-- The value of a field, or its default if it is not given. -/
def optional {α : Type} [Coded α] (fields : Fields) (name : String) (default : α) : Option α :=
  match fields.lookup name with
  | none => some default
  | some j => decode? j

end Fields

end CourseRegistration.Json
