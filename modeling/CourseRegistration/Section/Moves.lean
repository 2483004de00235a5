import CourseRegistration.Decision
import CourseRegistration.Section.Basic

/-!
# Moves of places

The changes that a section's seats go through.  Each is decided here for one section, or for the
two groups of a transfer; what a student may do at all is not looked at.  Every plan has one
change, except that a full section first grows by a seat when a student is let in by force.
-/

namespace CourseRegistration

open Journal Check

namespace Section

/-- A record filed under the section's department. -/
def record (s : Section) (entry : Entry) : Record :=
  ⟨s.department, entry⟩

/-- Gives the student the next free place, if any; the answer is the place. -/
def grant (s : Section) (student : StudentId) : Check (Plan Section (Option Place)) :=
  match s.seats.nextPlace with
  | none => .ok ⟨[], none⟩
  | some place =>
    .ok ⟨[{ record := s.record (.enroll student s.key (place = .waitlisted))
            result := s.withSeats (s.seats.give student place)
            event := .admitted student s.key place }], some place⟩

/-- Takes the student's place back. -/
def release (s : Section) (student : StudentId) : Check (Plan Section Unit) := do
  require (s.seats.holds student) (.fault (.absentFromRoster student s.key))
  return ⟨[{ record := s.record (.drop student s.key.course)
             result := s.withSeats (s.seats.vacate student)
             event := .removed student s.key }], ()⟩

/-- Moves the student's place from one group of a course to another; the answer says whether the
other group had a place. -/
def transfer (source destination : Section) (student : StudentId) :
    Check (Plan (Section × Section) Bool) := do
  require (source.key.course = destination.key.course && source.key.group != destination.key.group)
    (.fault (.impossibleTransfer source.key.course source.key.group destination.key.group))
  require (source.seats.holds student) (.fault (.absentFromRoster student source.key))
  match destination.seats.nextPlace with
  | none => return ⟨[], false⟩
  | some place =>
    return ⟨[{ record := source.record
                 (.switchGroup student ⟨source.key.course, destination.key.group⟩)
               result := (source.withSeats (source.seats.vacate student),
                 destination.withSeats (destination.seats.give student place))
               event := .moved student source.key.course source.key.group destination.key.group
                 place }], true⟩

/-- Lets the student in by force, as a registered student. -/
def enterByForce (s : Section) (student : StudentId) : Change Section where
  record := s.record (.enroll student s.key false)
  result := s.withSeats { s.seats with registered := s.seats.registered.insert student }
  event := .forced student s.key

/-- The section with one more seat, for a student who is let in by force. -/
def raise (s : Section) (capacity : UInt64) : Change Section where
  record := s.record (.resize s.key capacity [])
  result := s.withSeats { s.seats with capacity := capacity }
  event := .raised s.key capacity

/-- Registers the student whatever the capacity.  A full section first grows by one seat, and keeps
it even if the student then cannot be recorded. -/
def grantByForce (s : Section) (student : StudentId) : Check (Plan Section Unit) :=
  if !s.seats.isFull then .ok ⟨[s.enterByForce student], ()⟩
  else if s.seats.capacity.toNat + 1 = UInt64.size then .error .overflow
  else
    let raised := s.raise (s.seats.capacity + 1)
    .ok ⟨[raised, raised.result.enterByForce student], ()⟩

/-- Changes the capacity; waiting students move up into new seats, and they are the answer. -/
def resize (s : Section) (capacity : UInt64) : Check (Plan Section (List StudentId)) := do
  require (s.seats.registered.size ≤ capacity.toNat)
    (.capacityTooSmall capacity s.seats.registered.size)
  if capacity = s.seats.capacity then return ⟨[], []⟩
  else
    let promoted := s.seats.promoted capacity
    return ⟨[{ record := s.record (.resize s.key capacity promoted)
               result := s.withSeats (s.seats.resize capacity)
               event := .resized s.key s.seats.capacity capacity promoted.length }], promoted⟩

/-- The section as the student sees it, who must have a place in it. -/
def seenBy (s : Section) (student : StudentId) : Check StudentCourse :=
  match s.seats.position? student with
  | some position => .ok ⟨s.view, position⟩
  | none => fail (.fault (.absentFromRoster student s.key))

end Section

end CourseRegistration
