import CourseRegistration.Eligibility
import CourseRegistration.Section.Seats
import CourseRegistration.Timetable.WeeklyHours

/-!
# Sections

A section is one group of one course: what is taught when and by whom, who may come, and who has
its seats.  Only the seats and the time of the exam ever change.
-/

namespace CourseRegistration

/-- One group of one course. -/
structure Section where
  key : SectionKey
  department : DepartmentId
  lecturer : String
  /-- What it counts towards a student's units. -/
  units : UInt8
  /-- The time of the exam, or zero if there is none. -/
  examTime : Int64
  hours : WeeklyHours
  /-- Whom it is open to. -/
  lock : GenderLock
  /-- Who has its seats. -/
  seats : Seats
  deriving DecidableEq, Inhabited

/-- Whether two exams are at the same time; zero stands for no exam. -/
def examsClash (a b : Int64) : Bool :=
  a != 0 && b != 0 && a = b

theorem examsClash_iff {a b : Int64} : examsClash a b = true ↔ a ≠ 0 ∧ b ≠ 0 ∧ a = b := by
  simp only [examsClash, Bool.and_eq_true, bne_iff_ne, decide_eq_true_iff, and_assoc]

/-- What anyone may know of a section: what it is and how many have a place, but not who. -/
structure Offering where
  key : SectionKey
  department : DepartmentId
  lecturer : String
  /-- What it counts towards a student's units. -/
  units : UInt8
  capacity : UInt64
  reserve : UInt64
  /-- How many students are registered. -/
  registeredCount : Nat
  /-- How many students wait. -/
  waitlistCount : Nat
  /-- The time of the exam, or zero. -/
  examTime : Int64
  hours : WeeklyHours
  deriving DecidableEq

/-- Everyone who has a place in a section. -/
structure Roster where
  /-- The registered students in ascending order. -/
  registered : List StudentId
  /-- The waiting students, head first. -/
  waitlist : List StudentId
  deriving DecidableEq

/-- A section as one of its students sees it. -/
structure StudentCourse where
  course : Offering
  /-- 0 if the student is registered, else the place on the waitlist. -/
  position : Nat
  deriving DecidableEq

namespace Section

/-- The section without the names of those who have a place in it. -/
def view (s : Section) : Offering where
  key := s.key
  department := s.department
  lecturer := s.lecturer
  units := s.units
  capacity := s.seats.capacity
  reserve := s.seats.reserve
  registeredCount := s.seats.registered.size
  waitlistCount := s.seats.waitlist.length
  examTime := s.examTime
  hours := s.hours

/-- Everyone who has a place. -/
def roster (s : Section) : Roster :=
  ⟨s.seats.registered.items, s.seats.waitlist⟩

/-- The section with other seats. -/
def withSeats (s : Section) (seats : Seats) : Section :=
  { s with seats := seats }

/-- Seats a student who already belongs to the section, registered seats first.  A student who has
a place gets no other. -/
def seat (s : Section) (student : StudentId) : Option Place × Section :=
  if s.seats.holds student then (none, s)
  else
    match s.seats.nextPlace with
    | none => (none, s)
    | some place => (some place, s.withSeats (s.seats.give student place))

end Section

end CourseRegistration
