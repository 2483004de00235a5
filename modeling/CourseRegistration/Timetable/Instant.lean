/-!
# Instants and enrollment windows

An instant counts nanoseconds from the start of 1970 and lies between the first and the last
instant of the calendar, years -262143 to 262142.  The last second of a minute may be a leap
second, in which the count of nanoseconds runs on past one second; so the last instant is the end of
a leap second at the end of the last year.  Enrollment windows are given in whole milliseconds; an
instant counts as the millisecond it falls into.

A window is open for one hour, strictly after its start and strictly before its end.  The sum
`start + hour` is a 64-bit word.  It is only looked at when the start lies before an instant of
the calendar, and then it does not wrap.
-/

namespace CourseRegistration

/-- A point in time within the calendar. -/
structure Instant where
  /-- Nanoseconds from the start of 1970. -/
  nanoseconds : Int
  /-- No instant comes before the first one of the calendar. -/
  first_le : -8334601228800000000000 ≤ nanoseconds
  /-- No instant comes after the last one of the calendar. -/
  le_last : nanoseconds ≤ 8210266876800999999999

namespace Instant

instance : DecidableEq Instant := fun s t =>
  decidable_of_iff (s.nanoseconds = t.nanoseconds)
    ⟨fun h => by cases s; cases t; simp_all, fun h => h ▸ rfl⟩

/-- The start of 1970. -/
def epoch : Instant := ⟨0, by decide, by decide⟩

instance : Inhabited Instant := ⟨epoch⟩

/-- The instant a number of nanoseconds into a second, if the calendar has it.  Only the last second
of a minute may run on for another second, as a leap second. -/
def ofSeconds? (seconds : Int) (nanos : Nat) : Option Instant :=
  if h : -8334601228800 ≤ seconds ∧ seconds ≤ 8210266876799 ∧
      (nanos < 1000000000 ∨ nanos < 2000000000 ∧ seconds % 60 = 59) then
    some ⟨seconds * 1000000000 + nanos, by omega, by omega⟩
  else none

/-- The instant at which a millisecond begins, if the calendar has it. -/
def ofMilliseconds? (n : Int) : Option Instant :=
  ofSeconds? (n / 1000) ((n % 1000).toNat * 1000000)

/-- The millisecond that an instant falls into. -/
def milliseconds (t : Instant) : Int64 :=
  Int64.ofInt (t.nanoseconds / 1000000)

end Instant

/-- How long an enrollment window stays open, in milliseconds. -/
def windowLength : Int64 := 3600000

/-- Whether the window that starts at millisecond `start` is open. -/
def windowOpen (start : Int64) (now : Instant) : Bool :=
  decide (start < now.milliseconds) && decide (now.milliseconds < start + windowLength)

end CourseRegistration
