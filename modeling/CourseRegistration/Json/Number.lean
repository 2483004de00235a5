import CourseRegistration.Json.Value

/-!
# Number tokens

A number token is an optional minus sign, a whole part without leading zeros, an optional
fraction and an optional exponent.  A token without the last two is an integer, except that minus
zero is not.
-/

namespace CourseRegistration.Json

/-! ## Reading -/

/-- The digits at the front, and what follows them. -/
def spanDigits (cs : List Char) : List Char × List Char :=
  (cs.takeWhile Char.isDigit, cs.dropWhile Char.isDigit)

/-- Reads one or more digits. -/
def readDigits (cs : List Char) : Option (List Char × List Char) :=
  let (digits, rest) := spanDigits cs
  if digits = [] then none else some (digits, rest)

/-- The number that decimal digits spell. -/
def digitsValue (digits : List Char) : Nat :=
  Nat.ofDigitChars 10 digits 0

/-- Reads a minus sign if there is one. -/
def readSign : List Char → Bool × List Char
  | '-' :: rest => (true, rest)
  | cs => (false, cs)

/-- Reads the whole part: a single zero, or digits. -/
def readWhole : List Char → Option (List Char × List Char)
  | '0' :: rest => some (['0'], rest)
  | cs => readDigits cs

/-- Reads the digits after a point, if there is a point. -/
def readFraction : List Char → Option (Option (List Char) × List Char)
  | '.' :: rest =>
    match readDigits rest with
    | some (digits, rest') => some (some digits, rest')
    | none => none
  | cs => some (none, cs)

/-- Reads a plus or minus sign if there is one. -/
def readExponentSign : List Char → Bool × List Char
  | '-' :: rest => (true, rest)
  | '+' :: rest => (false, rest)
  | cs => (false, cs)

/-- Reads the exponent, if there is one. -/
def readExponent : List Char → Option (Option Int × List Char)
  | [] => some (none, [])
  | c :: rest =>
    if c = 'e' ∨ c = 'E' then
      let (negative, cs) := readExponentSign rest
      match readDigits cs with
      | some (digits, rest') =>
        let size : Int := digitsValue digits
        some (some (if negative then -size else size), rest')
      | none => none
    else some (none, c :: rest)

/-- The number of a token, by its parts. -/
def numberOf (negative : Bool) (whole : List Char) (fraction : Option (List Char))
    (exponent : Option Int) : Number :=
  match fraction, exponent with
  | none, none =>
    let size := digitsValue whole
    if negative then
      if size = 0 then .decimal true 0 0 else .integer (-size)
    else .integer size
  | _, _ =>
    let digits := fraction.getD []
    .decimal negative (digitsValue (whole ++ digits)) (exponent.getD 0 - digits.length)

/-- Reads a number token. -/
def readNumber (cs : List Char) : Option (Number × List Char) :=
  let (negative, cs) := readSign cs
  match readWhole cs with
  | none => none
  | some (whole, cs) =>
    match readFraction cs with
    | none => none
    | some (fraction, cs) =>
      match readExponent cs with
      | none => none
      | some (exponent, rest) => some (numberOf negative whole fraction exponent, rest)

/-! ## Writing -/

/-- The digits of an integer, after a minus sign if it is negative. -/
def writeInt : Int → List Char
  | .ofNat n => Nat.toDigits 10 n
  | .negSucc n => '-' :: Nat.toDigits 10 (n + 1)

/-- The token of a number.  A decimal is written without a point. -/
def writeNumber : Number → List Char
  | .integer n => writeInt n
  | .decimal negative digits exponent =>
    (if negative then ['-'] else []) ++ Nat.toDigits 10 digits ++ 'e' :: writeInt exponent

end CourseRegistration.Json
