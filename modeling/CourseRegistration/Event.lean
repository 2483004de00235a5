import CourseRegistration.Failure
import CourseRegistration.Section.Seats

/-!
# Events

Whatever the registry does is reported as an event: each change of seats once it is made, each
conflict of times when it is found, and each failed request once, at a level that tells its
category.
-/

namespace CourseRegistration

/-- How much an event matters. -/
inductive Level where
  | debug
  | info
  | warning
  | error
  deriving DecidableEq

/-- The name of a level. -/
def Level.name : Level → String
  | debug => "DEBUG"
  | info => "INFO"
  | warning => "WARN"
  | error => "ERROR"

/-- The level from which on events are shown, by its name in any case; details are shown from
`trace` on too, and a name that is no level stands for `info`. -/
def Level.ofThreshold (name : String) : Level :=
  let name := name.map Char.toLower
  if name = "trace" || name = "debug" then debug
  else if name = "warn" then warning
  else if name = "error" then error
  else info

/-- How grave an event of a level is. -/
def Level.gravity : Level → Nat
  | debug => 0
  | info => 1
  | warning => 2
  | error => 3

/-- Whether events of the level are shown under a threshold. -/
def Level.isShown (threshold : String) (l : Level) : Bool :=
  (ofThreshold threshold).gravity ≤ l.gravity

/-- What a request asks for. -/
inductive Action where
  | enroll
  | drop
  | switchGroup
  | staffEnroll
  | staffDrop
  | resize
  | listCourses
  deriving DecidableEq

/-- The name of an action. -/
def Action.name : Action → String
  | enroll => "enroll"
  | drop => "disenroll"
  | switchGroup => "change group"
  | staffEnroll => "force enroll"
  | staffDrop => "force disenroll"
  | resize => "change capacity"
  | listCourses => "list courses"

/-- What a request is about. -/
inductive Subject where
  | student (id : StudentId)
  | studentCourse (id : StudentId) (course : CourseId)
  | oneSection (key : SectionKey)
  deriving DecidableEq

/-- The subject for people. -/
def Subject.text : Subject → String
  | student id => "student " ++ id.text
  | studentCourse id course => "student " ++ id.text ++ " course " ++ course.text
  | oneSection key => key.text

/-- Something that happened. -/
inductive Event where
  /-- The exam of a held section is at the time of the exam of the wanted one. -/
  | examClash (student : StudentId) (held wanted : SectionKey)
  | hoursClash (student : StudentId) (held wanted : SectionKey)
  /-- The student got a place. -/
  | admitted (student : StudentId) (key : SectionKey) (place : Place)
  /-- The student gave a place up. -/
  | removed (student : StudentId) (key : SectionKey)
  /-- The student moved between groups of a course. -/
  | moved (student : StudentId) (course : CourseId) (source destination : GroupId) (place : Place)
  /-- The capacity grew to let a student in. -/
  | raised (key : SectionKey) (capacity : UInt64)
  /-- The student got a registered seat whatever the capacity. -/
  | forced (student : StudentId) (key : SectionKey)
  /-- The capacity changed. -/
  | resized (key : SectionKey) (before after : UInt64) (promoted : Nat)
  /-- A request failed. -/
  | failed (action : Action) (subject : Subject) (cause : Failure)
  /-- A registry was built. -/
  | loaded (departments sections students : Nat)
  /-- A registry went into service. -/
  | serving (students sections : Nat)
  deriving DecidableEq

namespace Event

/-- Failures are reported at the level of their category. -/
def failureLevel (cause : Failure) : Level :=
  match cause.category with
  | .rejection => .debug
  | .infrastructure => .warning
  | .fault => .error

/-- How much an event matters. -/
def level : Event → Level
  | raised .. | resized .. | loaded .. | serving .. => .info
  | failed _ _ cause => failureLevel cause
  | _ => .debug

/-- What happened to a failed request, in words. -/
def failureVerb (cause : Failure) : String :=
  match cause.category with
  | .rejection => "rejected"
  | .infrastructure => "failed"
  | .fault => "hit an inconsistent state"

/-- The message for people. -/
def message : Event → String
  | examClash student held wanted =>
    "student " ++ student.text ++ " exam conflict between " ++ held.text ++ " and " ++ wanted.text
  | hoursClash student held wanted =>
    "student " ++ student.text ++ " class time conflict between " ++ held.text ++ " and " ++
      wanted.text
  | admitted student key place =>
    "admitted student " ++ student.text ++ " into " ++ key.text ++ " as " ++ place.name
  | removed student key => "removed student " ++ student.text ++ " from " ++ key.text
  | moved student course source destination place =>
    "moved student " ++ student.text ++ " in course " ++ course.text ++ " from group " ++
      source.text ++ " to " ++ destination.text ++ " as " ++ place.name
  | raised key capacity =>
    "capacity of " ++ key.text ++ " raised to " ++ toString capacity.toNat ++
      " for a forced enrollment"
  | forced student key => "force admitted student " ++ student.text ++ " into " ++ key.text
  | resized key before after promoted =>
    "capacity of " ++ key.text ++ " changed from " ++ toString before.toNat ++ " to " ++
      toString after.toNat ++ ", promoted " ++ toString promoted ++ " students"
  | failed action subject cause =>
    action.name ++ " " ++ failureVerb cause ++ " for " ++ subject.text ++ ": " ++ cause.message
  | loaded departments sections students =>
    "loaded " ++ toString departments ++ " departments, " ++ toString sections ++
      " sections and " ++ toString students ++ " students"
  | serving students sections =>
    "serving " ++ toString students ++ " students over " ++ toString sections ++ " sections"

end Event

end CourseRegistration
