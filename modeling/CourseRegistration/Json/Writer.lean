import CourseRegistration.Json.Literal
import CourseRegistration.Json.Number

/-!
# Writing JSON

Values are written without blanks, members in their order.
-/

namespace CourseRegistration.Json

mutual

/-- The characters of a value. -/
def write : Json → List Char
  | .null => ['n', 'u', 'l', 'l']
  | .bool true => ['t', 'r', 'u', 'e']
  | .bool false => ['f', 'a', 'l', 's', 'e']
  | .number n => writeNumber n
  | .string s => writeLiteral s
  | .array [] => ['[', ']']
  | .array (item :: items) => '[' :: (write item ++ writeItems items)
  | .object [] => ['{', '}']
  | .object ((name, value) :: members) =>
    '{' :: (writeLiteral name ++ ':' :: (write value ++ writeMembers members))

/-- The rest of an array after one of its items. -/
def writeItems : List Json → List Char
  | [] => [']']
  | item :: items => ',' :: (write item ++ writeItems items)

/-- The rest of an object after one of its members. -/
def writeMembers : List (Literal × Json) → List Char
  | [] => ['}']
  | (name, value) :: members =>
    ',' :: (writeLiteral name ++ ':' :: (write value ++ writeMembers members))

end

/-- The text of a value. -/
def toText (j : Json) : String :=
  String.ofList (write j)

end CourseRegistration.Json
