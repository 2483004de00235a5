import CourseRegistration.Json.Value

/-!
# String literals

Between its quotation marks a literal is a sequence of characters and escapes.  It is read in two
steps: first into pieces, where `\u` escapes are 16-bit units, then the units are assembled into
characters.  Units between D800 and DFFF denote a character only as a high unit followed at once
by a low one; a literal where this fails is still well formed, but denotes no text.
-/

namespace CourseRegistration.Json

/-- A piece of a literal. -/
inductive Piece where
  /-- A character, written as itself or by a short escape. -/
  | char (c : Char)
  /-- The 16-bit unit of a `\u` escape. -/
  | unit (u : Nat)
  deriving DecidableEq

/-! ## Reading -/

/-- The value of a hexadecimal digit of either case. -/
def hexDigit? (c : Char) : Option Nat :=
  if '0' ≤ c ∧ c ≤ '9' then some (c.toNat - '0'.toNat)
  else if 'a' ≤ c ∧ c ≤ 'f' then some (c.toNat - 'a'.toNat + 10)
  else if 'A' ≤ c ∧ c ≤ 'F' then some (c.toNat - 'A'.toNat + 10)
  else none

/-- The unit that four hexadecimal digits spell. -/
def hexUnit? (a b c d : Char) : Option Nat :=
  match hexDigit? a, hexDigit? b, hexDigit? c, hexDigit? d with
  | some a, some b, some c, some d => some (((a * 16 + b) * 16 + c) * 16 + d)
  | _, _, _, _ => none

/-- The character that a backslash and `c` stand for. -/
def shortEscape? (c : Char) : Option Char :=
  match c with
  | '"' => some '"'
  | '\\' => some '\\'
  | '/' => some '/'
  | 'b' => some '\x08'
  | 'f' => some '\x0c'
  | 'n' => some '\n'
  | 'r' => some '\r'
  | 't' => some '\t'
  | _ => none

/-- Reads the pieces up to the closing quotation mark.  Control characters must be escaped. -/
def readPieces : List Char → Option (List Piece × List Char)
  | [] => none
  | '"' :: rest => some ([], rest)
  | '\\' :: 'u' :: a :: b :: c :: d :: rest =>
    match hexUnit? a b c d, readPieces rest with
    | some u, some (pieces, rest') => some (.unit u :: pieces, rest')
    | _, _ => none
  | '\\' :: c :: rest =>
    match shortEscape? c, readPieces rest with
    | some e, some (pieces, rest') => some (.char e :: pieces, rest')
    | _, _ => none
  | c :: rest =>
    if c.toNat < 0x20 then none
    else
      match readPieces rest with
      | some (pieces, rest') => some (.char c :: pieces, rest')
      | none => none

/-- Whether a unit is the first half of a pair. -/
def isHighUnit (u : Nat) : Bool := 0xD800 ≤ u && u < 0xDC00

/-- Whether a unit is the second half of a pair. -/
def isLowUnit (u : Nat) : Bool := 0xDC00 ≤ u && u < 0xE000

/-- The character of a pair of units. -/
def pairChar (high low : Nat) : Char :=
  Char.ofNat (0x10000 + (high - 0xD800) * 0x400 + (low - 0xDC00))

/-- The characters that the pieces denote, unless half of a pair stands alone. -/
def assemble : List Piece → Option (List Char)
  | [] => some []
  | .char c :: rest => (assemble rest).map (c :: ·)
  | .unit u :: rest =>
    if isLowUnit u then none
    else if isHighUnit u then
      match rest with
      | .unit v :: rest' =>
        if isLowUnit v then (assemble rest').map (pairChar u v :: ·) else none
      | _ => none
    else (assemble rest).map (Char.ofNat u :: ·)

/-- Reads a literal whose opening quotation mark has been read. -/
def readLiteral (cs : List Char) : Option (Literal × List Char) :=
  match readPieces cs with
  | some (pieces, rest) => some ((assemble pieces).map String.ofList, rest)
  | none => none

/-! ## Writing -/

/-- The written form of a character: quotation mark, backslash and control characters are
escaped. -/
def escapeChar (c : Char) : List Char :=
  if c = '"' then ['\\', '"']
  else if c = '\\' then ['\\', '\\']
  else if c = '\x08' then ['\\', 'b']
  else if c = '\x0c' then ['\\', 'f']
  else if c = '\n' then ['\\', 'n']
  else if c = '\r' then ['\\', 'r']
  else if c = '\t' then ['\\', 't']
  else if c.toNat < 0x20 then
    ['\\', 'u', '0', '0', Nat.digitChar (c.toNat / 16), Nat.digitChar (c.toNat % 16)]
  else [c]

/-- The written form of a literal; one that denotes no text is written as a lone high unit. -/
def writeLiteral : Literal → List Char
  | some s => '"' :: (s.toList.flatMap escapeChar ++ ['"'])
  | none => ['"', '\\', 'u', 'd', '8', '0', '0', '"']

end CourseRegistration.Json
