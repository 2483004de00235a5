import CourseRegistration.Identifier
import CourseRegistration.Ordered.Set

/-!
# Seats

A section has registered seats, up to its capacity, and behind them a waitlist, up to its reserve.
A newcomer gets a registered seat if one is free, else the last place of the waitlist.  When a
registered student leaves, the head of the waitlist moves up.
-/

namespace CourseRegistration

/-- The two kinds of places. -/
inductive Place where
  /-- A registered seat. -/
  | registered
  /-- The end of the waitlist. -/
  | waitlisted
  deriving DecidableEq, Inhabited

/-- The name of a kind of place. -/
def Place.name : Place → String
  | registered => "Registered"
  | waitlisted => "Waitlisted"

/-- The seats of a section and who has them. -/
structure Seats where
  capacity : UInt64
  reserve : UInt64
  registered : OrderedSet StudentId
  /-- The waiting students, head first. -/
  waitlist : List StudentId
  deriving DecidableEq

namespace Seats

/-- Seats that nobody has. -/
def vacant (capacity reserve : UInt64) : Seats :=
  ⟨capacity, reserve, .empty, []⟩

instance : Inhabited Seats := ⟨vacant 0 0⟩

/-- Whether every registered seat is taken. -/
def isFull (s : Seats) : Bool :=
  s.capacity.toNat ≤ s.registered.size

/-- The place that the next student would get, if any is free. -/
def nextPlace (s : Seats) : Option Place :=
  if s.registered.size < s.capacity.toNat then some .registered
  else if s.waitlist.length < s.reserve.toNat then some .waitlisted
  else none

/-- Whether the student has a place. -/
def holds (s : Seats) (student : StudentId) : Bool :=
  student ∈ s.registered || student ∈ s.waitlist

/-- Gives the student a place. -/
def give (s : Seats) (student : StudentId) : Place → Seats
  | .registered => { s with registered := s.registered.insert student }
  | .waitlisted => { s with waitlist := s.waitlist ++ [student] }

/-- Takes the student's place back.  A registered seat goes to the head of the waitlist. -/
def vacate (s : Seats) (student : StudentId) : Seats :=
  if student ∈ s.registered then
    match s.waitlist with
    | [] => { s with registered := s.registered.erase student }
    | next :: waitlist =>
      { s with registered := (s.registered.erase student).insert next, waitlist := waitlist }
  else { s with waitlist := s.waitlist.erase student }

/-- Where the student stands: 0 for a registered student, else the place on the waitlist, whose
head has place 1. -/
def position? (s : Seats) (student : StudentId) : Option Nat :=
  if student ∈ s.registered then some 0
  else (s.waitlist.idxOf? student).map (· + 1)

/-- How many waiting students a capacity of `n` makes room for. -/
def promotable (s : Seats) (n : UInt64) : Nat :=
  min (n.toNat - s.capacity.toNat) s.waitlist.length

/-- The students who move up if the capacity becomes `n`. -/
def promoted (s : Seats) (n : UInt64) : List StudentId :=
  s.waitlist.take (s.promotable n)

/-- The seats with a capacity of `n`; waiting students move up as far as it makes room. -/
def resize (s : Seats) (n : UInt64) : Seats :=
  { s with
    capacity := n
    registered := s.registered.insertAll (s.promoted n)
    waitlist := s.waitlist.drop (s.promotable n) }

end Seats

end CourseRegistration
