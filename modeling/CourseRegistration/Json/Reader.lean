import CourseRegistration.Json.Literal
import CourseRegistration.Json.Number

/-!
# Reading JSON

The grammar is that of RFC 8259.  Blanks are space, tab, line feed and carriage return, and
nothing but blanks may surround the one value of a text.

Each recursive call is made after at least one character has been read, so a supply of steps that
exceeds the length of the text never runs out.
-/

namespace CourseRegistration.Json

/-- Whether a character may stand between tokens. -/
def isBlank (c : Char) : Bool :=
  c = ' ' || c = '\t' || c = '\n' || c = '\r'

/-- The text from the first token on. -/
def skipBlanks (cs : List Char) : List Char :=
  cs.dropWhile isBlank

mutual

/-- Reads a value that begins with the first character. -/
def readValue : Nat → List Char → Option (Json × List Char)
  | 0, _ => none
  | steps + 1, cs =>
    match cs with
    | 'n' :: 'u' :: 'l' :: 'l' :: rest => some (.null, rest)
    | 't' :: 'r' :: 'u' :: 'e' :: rest => some (.bool true, rest)
    | 'f' :: 'a' :: 'l' :: 's' :: 'e' :: rest => some (.bool false, rest)
    | '"' :: rest =>
      match readLiteral rest with
      | some (s, rest') => some (.string s, rest')
      | none => none
    | '[' :: rest =>
      match skipBlanks rest with
      | ']' :: rest' => some (.array [], rest')
      | cs' =>
        match readValue steps cs' with
        | none => none
        | some (item, rest') =>
          match readItems steps (skipBlanks rest') with
          | none => none
          | some (items, rest'') => some (.array (item :: items), rest'')
    | '{' :: rest =>
      match skipBlanks rest with
      | '}' :: rest' => some (.object [], rest')
      | cs' =>
        match readMember steps cs' with
        | none => none
        | some (member, rest') =>
          match readMembers steps (skipBlanks rest') with
          | none => none
          | some (members, rest'') => some (.object (member :: members), rest'')
    | cs =>
      match readNumber cs with
      | some (n, rest) => some (.number n, rest)
      | none => none

/-- Reads the rest of an array after one of its items. -/
def readItems : Nat → List Char → Option (List Json × List Char)
  | 0, _ => none
  | steps + 1, cs =>
    match cs with
    | ']' :: rest => some ([], rest)
    | ',' :: rest =>
      match readValue steps (skipBlanks rest) with
      | none => none
      | some (item, rest') =>
        match readItems steps (skipBlanks rest') with
        | none => none
        | some (items, rest'') => some (item :: items, rest'')
    | _ => none

/-- Reads the name and the value of a member. -/
def readMember : Nat → List Char → Option ((Literal × Json) × List Char)
  | 0, _ => none
  | steps + 1, cs =>
    match cs with
    | '"' :: rest =>
      match readLiteral rest with
      | none => none
      | some (name, rest') =>
        match skipBlanks rest' with
        | ':' :: rest'' =>
          match readValue steps (skipBlanks rest'') with
          | none => none
          | some (value, rest''') => some ((name, value), rest''')
        | _ => none
    | _ => none

/-- Reads the rest of an object after one of its members. -/
def readMembers : Nat → List Char → Option (List (Literal × Json) × List Char)
  | 0, _ => none
  | steps + 1, cs =>
    match cs with
    | '}' :: rest => some ([], rest)
    | ',' :: rest =>
      match readMember steps (skipBlanks rest) with
      | none => none
      | some (member, rest') =>
        match readMembers steps (skipBlanks rest') with
        | none => none
        | some (members, rest'') => some (member :: members, rest'')
    | _ => none

end

/-- The value of a JSON text. -/
def read? (text : String) : Option Json :=
  let cs := text.toList
  match readValue (cs.length + 1) (skipBlanks cs) with
  | some (value, rest) => if skipBlanks rest = [] then some value else none
  | none => none

end CourseRegistration.Json
