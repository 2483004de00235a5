/-!
# Documents

Settings and snapshots are kept in documents.  A document can only be read if it exists and its
bytes are UTF-8 text.
-/

namespace CourseRegistration

/-- What is found where a document should be. -/
inductive Document where
  | absent
  | bytes (content : ByteArray)

/-- Why a document cannot be read. -/
inductive Unreadable where
  | notFound
  /-- The bytes are not UTF-8 text. -/
  | notText
  deriving DecidableEq

/-- The message for people. -/
def Unreadable.message : Unreadable → String
  | notFound => "not found"
  | notText => "not UTF-8 text"

/-- The document that holds a text. -/
def Document.ofText (text : String) : Document :=
  .bytes text.toUTF8

/-- The text of a document. -/
def Document.read : Document → Except Unreadable String
  | absent => .error .notFound
  | bytes content =>
    match String.fromUTF8? content with
    | some text => .ok text
    | none => .error .notText

end CourseRegistration
