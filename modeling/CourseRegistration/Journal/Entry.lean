import CourseRegistration.Identifier

/-!
# Journal entries

Every change of seats is recorded in a journal before it is made.  An entry holds just enough to
make the change again from the same seats.  It leaves out what the seats themselves decide: which
group a student leaves, and who moves up from a waitlist when a registered seat is freed.
-/

namespace CourseRegistration

namespace Journal

/-- One change of seats. -/
inductive Entry where
  /-- The student takes a place: at the end of the waitlist if `waitlisted`, else a registered
  seat. -/
  | enroll (student : StudentId) (key : SectionKey) (waitlisted : Bool)
  /-- The student gives up the place in the course. -/
  | drop (student : StudentId) (course : CourseId)
  /-- The student moves to this section from another group of the course. -/
  | switchGroup (student : StudentId) (destination : SectionKey)
  /-- The capacity changes, and `promoted` move in order from the head of the waitlist to
  registered seats. -/
  | resize (key : SectionKey) (capacity : UInt64) (promoted : List StudentId)
  deriving DecidableEq

/-- An entry with the department under which it is filed. -/
structure Record where
  department : DepartmentId
  entry : Entry
  deriving DecidableEq

/-- Why a journal did not take a record. -/
inductive Refusal where
  /-- Nobody receives records any more. -/
  | closed
  /-- The request was cancelled before the record was taken. -/
  | cancelled
  /-- The journal rejected the record. -/
  | rejected (reason : String)
  deriving DecidableEq

/-- The message for people. -/
def Refusal.message : Refusal → String
  | closed => "intent channel closed"
  | cancelled => "cancelled before the intent was queued"
  | rejected reason => "intent rejected: " ++ reason

end Journal

end CourseRegistration
