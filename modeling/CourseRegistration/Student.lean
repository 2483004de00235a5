import CourseRegistration.Decision
import CourseRegistration.Ordered.Map
import CourseRegistration.Section.Basic
import CourseRegistration.Timetable.Instant

/-!
# Students

A student has a category, a window, a limit of units and a number of actions, and holds at most
one group of each course.  Units are kept as a running total in one 16-bit word.
-/

namespace CourseRegistration

/-- A student and what the student holds. -/
structure Student where
  id : StudentId
  gender : Gender
  windowStart : Int64
  /-- How many units the student may hold. -/
  maxUnits : UInt16
  /-- How many units the student holds. -/
  units : UInt16
  /-- How many more courses the student may drop or change. -/
  actions : UInt8
  courses : OrderedMap CourseId GroupId
  deriving DecidableEq, Inhabited

namespace Student

/-! ## Units -/

/-- The sum of a total and a section's units, if it fits its word. -/
def addUnits? (total : UInt16) (units : UInt8) : Option UInt16 :=
  if total.toNat + units.toNat < UInt16.size then some (total + units.toUInt16) else none

/-- The sum of a total and a section's units, cut off at the largest word. -/
def addUnits (total : UInt16) (units : UInt8) : UInt16 :=
  (addUnits? total units).getD 65535

/-- The rest of a total without a section's units, at least zero. -/
def subUnits (total : UInt16) (units : UInt8) : UInt16 :=
  if units.toUInt16 ≤ total then total - units.toUInt16 else 0

/-! ## Holdings -/

/-- Whether the enrollment window is open. -/
def windowOpen (s : Student) (now : Instant) : Bool :=
  CourseRegistration.windowOpen s.windowStart now

/-- Whether the student holds a group of the course. -/
def holdsCourse (s : Student) (course : CourseId) : Bool :=
  s.courses.contains course

/-- The held sections in ascending order of course. -/
def held (s : Student) : List SectionKey :=
  s.courses.entries.map fun (course, group) => ⟨course, group⟩

/-- The student holding a group, with the given total of units. -/
def hold (s : Student) (key : SectionKey) (units : UInt16) : Student :=
  { s with units := units, courses := s.courses.insert key.course key.group }

/-- The student without a course worth the given units. -/
def letGo (s : Student) (course : CourseId) (units : UInt8) : Student :=
  { s with units := subUnits s.units units, courses := s.courses.erase course }

/-- The student with one action less. -/
def spendAction (s : Student) : Student :=
  { s with actions := s.actions - 1 }

end Student

end CourseRegistration
