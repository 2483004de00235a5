import CourseRegistration.Journal.Entry

/-!
# Failures

A request fails because a rule of registration forbids it, because the journal did not take a
record, or because the registry turns out to be inconsistent.  The three cases are kept apart by
`Failure.category`: the first is the caller's to correct, the second is a matter of the
installation, the third is a fault of the registry itself.
-/

namespace CourseRegistration

/-- A disagreement between a student's courses and the sections. -/
inductive Fault where
  /-- A student holds a section that is not in the catalog. -/
  | sectionMissing (student : StudentId) (key : SectionKey)
  /-- A student holds a section whose roster does not have the student. -/
  | absentFromRoster (student : StudentId) (key : SectionKey)
  /-- A move was asked for between sections that are not two groups of one course. -/
  | impossibleTransfer (course : CourseId) (source destination : GroupId)
  deriving DecidableEq

/-- The message for people. -/
def Fault.message : Fault → String
  | sectionMissing student key =>
    "student " ++ student.text ++ " holds " ++ key.text ++ " but the section does not exist"
  | absentFromRoster student key =>
    "student " ++ student.text ++ " holds " ++ key.text ++
      " but the section roster does not have them"
  | impossibleTransfer course source destination =>
    "sections " ++ SectionKey.text ⟨course, source⟩ ++ " and " ++
      SectionKey.text ⟨course, destination⟩ ++ " cannot be used for a transfer"

/-- Why a request failed. -/
inductive Failure where
  /-- The section does not exist, or the student does not hold the course. -/
  | unknownSection
  | unknownStudent (student : StudentId)
  /-- The section is kept for the other category of students. -/
  | genderLocked
  /-- The student's enrollment window is not open. -/
  | outsideWindow
  /-- The student would hold more units than allowed. -/
  | unitLimitReached
  /-- The student holds the course already. -/
  | alreadyHeld
  /-- The exam is at the time of the exam of a section that the student holds. -/
  | examClash (held : SectionKey)
  /-- The hours overlap those of a section that the student holds. -/
  | hoursClash (held : SectionKey)
  /-- Neither a registered seat nor a place on the waitlist is free. -/
  | noPlaceLeft
  /-- The student has used up the actions. -/
  | noActionsLeft
  /-- The student holds the group that the move asks for. -/
  | sameGroup
  /-- The capacity would be below the number of registered students. -/
  | capacityTooSmall (requested : UInt64) (registered : Nat)
  /-- The journal did not take a record. -/
  | journal (why : Journal.Refusal)
  | fault (what : Fault)
  deriving DecidableEq

/-- The kinds of failures. -/
inductive Category where
  /-- The request breaks a rule, and the caller can correct it. -/
  | rejection
  /-- The change could not be recorded. -/
  | infrastructure
  | fault
  deriving DecidableEq

namespace Category

/-- The name of a category. -/
def name : Category → String
  | rejection => "rejection"
  | infrastructure => "infrastructure"
  | fault => "fault"

end Category

namespace Failure

/-- Whose matter a failure is. -/
def category : Failure → Category
  | journal _ => .infrastructure
  | fault _ => .fault
  | _ => .rejection

/-- The message for people. -/
def message : Failure → String
  | unknownSection => "course does not exist"
  | unknownStudent student => "student " ++ student.text ++ " does not exist"
  | genderLocked => "you cannot pick up this course due to gender lock"
  | outsideWindow => "it's not your enrollment time"
  | unitLimitReached => "unit limit has been reached"
  | alreadyHeld => "you are already registered in this course"
  | examClash held => "exam conflict with course " ++ held.text
  | hoursClash held => "class time conflict with course " ++ held.text
  | noPlaceLeft => "this course's capacity is filled"
  | noActionsLeft => "no more remaining actions left"
  | sameGroup => "source and destination group ID is same"
  | capacityTooSmall requested registered =>
    "new capacity " ++ toString requested.toNat ++ " is lower than the " ++
      toString registered ++ " registered students"
  | journal why => "cannot batch data: " ++ why.message
  | fault what => "inconsistent state: " ++ what.message

end Failure

end CourseRegistration
