import CourseRegistration.Eligibility
import CourseRegistration.Identifier
import CourseRegistration.Timetable.WeeklyHours

/-!
# Snapshots

A snapshot is the stored state of registration: departments, sections with everyone who has a
place in them, and students with the sections they hold.  It says who holds what twice, and
nothing here makes the two agree; building a registry from it checks that.
-/

namespace CourseRegistration

namespace Snapshot

/-- A stored department. -/
structure StoredDepartment where
  id : DepartmentId
  name : String
  deriving DecidableEq

/-- A stored section. -/
structure StoredSection where
  key : SectionKey
  department : DepartmentId
  lecturer : String
  /-- What it counts towards a student's units. -/
  units : UInt8
  capacity : UInt64
  reserve : UInt64
  /-- The time of the exam, if there is one. -/
  examTime : Option Int64
  /-- When it meets, if it has hours. -/
  hours : Option Hours
  /-- Whom it is open to. -/
  lock : GenderLock
  /-- Everyone who has a place, in the order in which they got it. -/
  students : List StudentId
  deriving DecidableEq

/-- A stored student. -/
structure StoredStudent where
  id : StudentId
  windowStart : Int64
  /-- How many units the student may hold. -/
  maxUnits : UInt16
  /-- How many more courses the student may drop or change. -/
  actions : UInt8
  gender : Gender
  /-- The sections that the student holds. -/
  courses : List SectionKey
  deriving DecidableEq

end Snapshot

/-- A stored state of registration. -/
structure Snapshot where
  departments : List Snapshot.StoredDepartment
  sections : List Snapshot.StoredSection
  students : List Snapshot.StoredStudent
  deriving DecidableEq

end CourseRegistration
