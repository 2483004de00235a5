/-!
# JSON values

A JSON text denotes a tree of values.  Three facts about a text survive in the tree because
readers of records depend on them: an integer token is told from a token with a point, an
exponent or a minus sign before zero; a string literal may spell half of a surrogate pair and
then denotes no text; and members of an object keep their order and may repeat a name.
-/

namespace CourseRegistration

/-- A number token. -/
inductive Json.Number where
  /-- A token of digits, with a minus sign unless it is zero. -/
  | integer (value : Int)
  /-- Any other token: the number `digits * 10 ^ exponent`, negated if `negative`. -/
  | decimal (negative : Bool) (digits : Nat) (exponent : Int)
  deriving DecidableEq, Inhabited

/-- What a string literal denotes: a text, or nothing if it spells an unpaired surrogate. -/
abbrev Json.Literal := Option String

/-- A JSON value. -/
inductive Json where
  | null
  | bool (value : Bool)
  | number (value : Json.Number)
  | string (value : Json.Literal)
  | array (items : List Json)
  | object (members : List (Json.Literal × Json))
  deriving Inhabited

namespace Json

/-- The string value of a text. -/
def text (s : String) : Json := .string (some s)

/-- The number value of an integer. -/
def int (n : Int) : Json := .number (.integer n)

/-- The object with the given names and values. -/
def ofMembers (members : List (String × Json)) : Json :=
  .object (members.map fun (name, value) => (some name, value))

/-! ## Magnitude -/

namespace Number

/-- The numbers from here on are nearer to infinity than to any double. -/
def overflowBound : Nat := Nat.pow 2 1024 - Nat.pow 2 970

/-- The number of 53 significant bits that is nearest to `n`; of two equally near ones, the even
one. -/
def nearestDouble (n : Nat) : Nat :=
  let unit := Nat.pow 2 (n.log2 + 1 - 53)
  let whole := n / unit
  let rest := n % unit
  if unit < 2 * rest ∨ (unit = 2 * rest ∧ whole % 2 = 1) then (whole + 1) * unit
  else whole * unit

/-- As many leading decimal digits of `n` as fit a 64-bit word, and how many digits follow them. -/
def leadingDigits (n : Nat) : Nat × Nat :=
  let spare := (Nat.toDigits 10 n).length - 20
  let word := n / Nat.pow 10 spare
  if word < UInt64.size then (word, spare) else (word / 10, spare + 1)

/-- Whether `digits * 10 ^ exponent` stays finite when it is worked out in doubles: the leading
digits and the power of ten that goes with them are each rounded, and so is their product. -/
def staysFinite (digits : Nat) (exponent : Int) : Bool :=
  let (word, spare) := leadingDigits digits
  let power := exponent + spare
  if word = 0 ∨ power ≤ 0 then true
  else if 308 < power then false
  else nearestDouble word * nearestDouble (Nat.pow 10 power.toNat) < overflowBound

/-- Whether the number is finite as a double. -/
def isFinite : Number → Bool
  | integer n => staysFinite n.natAbs 0
  | decimal _ digits exponent => staysFinite digits exponent

end Number

/-! ## Plain values -/

mutual

/-- Whether every literal of a value denotes a text, every number is finite, and arrays and
objects are nested at most `room` deep. -/
def isPlain (room : Nat) : Json → Bool
  | null => true
  | bool _ => true
  | number n => n.isFinite
  | string s => s.isSome
  | array items => 0 < room && arePlainItems (room - 1) items
  | object members => 0 < room && arePlainMembers (room - 1) members

/-- `isPlain` for the items of an array. -/
def arePlainItems (room : Nat) : List Json → Bool
  | [] => true
  | item :: rest => isPlain room item && arePlainItems room rest

/-- `isPlain` for the names and values of an object. -/
def arePlainMembers (room : Nat) : List (Literal × Json) → Bool
  | [] => true
  | (name, value) :: rest => name.isSome && isPlain room value && arePlainMembers room rest

end

end Json

end CourseRegistration
