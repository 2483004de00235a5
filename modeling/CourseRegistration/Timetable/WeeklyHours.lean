import CourseRegistration.Timetable.Weekday

/-!
# Weekly hours

The hours of a class are a set of weekdays with a first and a last minute of the day.  People
write them as `Hours`; a section keeps them as `WeeklyHours`, one 32-bit word:

* bits 0 to 21 hold `start + 1440 * finish`,
* bits 22 to 28 hold one bit for each weekday, Sunday first.

The word is what is compared.  Every word can be read, also one that no packing produces: its
minutes are then reduced to the minutes of a day and its three highest bits are ignored.
-/

namespace CourseRegistration

/-- The number of minutes in a day. -/
def minutesPerDay : Nat := 1440

/-- The hours of a class as they are written down. -/
structure Hours where
  /-- The weekdays on which the class meets, in any order. -/
  days : List Weekday
  /-- The minute of the day at which the class begins. -/
  start : UInt16
  /-- The minute of the day at which the class ends; the class does not fill this minute. -/
  finish : UInt16
  deriving DecidableEq, Inhabited

/-- The hours of a class packed into one word. -/
structure WeeklyHours where
  /-- The packed days and minutes. -/
  word : UInt32
  deriving DecidableEq, Inhabited

namespace WeeklyHours

/-- No days and no minutes: the hours of a class without a timetable. -/
def unscheduled : WeeklyHours := ⟨0⟩

/-- The number of low bits that hold the minutes. -/
def minuteBits : UInt32 := 22

/-- The low bits of a word, which hold the minutes. -/
def minuteMask : UInt32 := (1 <<< minuteBits) - 1

/-- The bit of a weekday among the weekday bits. -/
def dayBit (d : Weekday) : UInt32 :=
  1 <<< UInt32.ofNat d.index

/-- The word of the given days and minutes. -/
def ofHours (h : Hours) : WeeklyHours :=
  let minutes : UInt32 := h.start.toUInt32 + 1440 * h.finish.toUInt32
  ⟨h.days.foldl (fun w d => w ||| (dayBit d <<< minuteBits)) minutes⟩

/-- The first minute. -/
def start (w : WeeklyHours) : UInt16 :=
  ((w.word &&& minuteMask) % 1440).toUInt16

/-- The minute at which the class has ended. -/
def finish (w : WeeklyHours) : UInt16 :=
  ((w.word &&& minuteMask) / 1440 % 1440).toUInt16

/-- The weekday bits, Sunday lowest. -/
def dayBits (w : WeeklyHours) : UInt32 :=
  (w.word >>> minuteBits) &&& 0x7f

/-- The weekdays, Sunday first. -/
def days (w : WeeklyHours) : List Weekday :=
  Weekday.all.filter fun d => w.dayBits &&& dayBit d != 0

/-- The days and minutes that a word holds. -/
def toHours (w : WeeklyHours) : Hours :=
  ⟨w.days, w.start, w.finish⟩

/-- Whether two classes meet at the same time: on a common day, and each begins before the other
has ended. -/
def overlaps (v w : WeeklyHours) : Bool :=
  decide (v.start < w.finish) && decide (w.start < v.finish) && v.dayBits &&& w.dayBits != 0

/-- The hours spelled out for diagnostics. -/
def describe (w : WeeklyHours) : String :=
  "WeeklyTimeSlot \x7b days: [" ++ ", ".intercalate (w.days.map Weekday.shortName) ++
    "], start_minute: " ++ toString w.start.toNat ++
    ", end_minute: " ++ toString w.finish.toNat ++ " \x7d"

end WeeklyHours

/-! ## Packing with checks -/

/-- What can be wrong with written hours. -/
inductive HoursError where
  /-- A minute lies beyond the day. -/
  | beyondDay (start finish : UInt16)
  /-- The class ends before it begins. -/
  | backwards (start finish : UInt16)
  deriving DecidableEq

namespace HoursError

/-- The message for people. -/
def message : HoursError → String
  | beyondDay s f => "minutes must be below 1440, got " ++ range s f
  | backwards s f => "class ends before it starts: " ++ range s f
where
  /-- Both minutes with two dots between them. -/
  range (s f : UInt16) : String := toString s.toNat ++ ".." ++ toString f.toNat

end HoursError

namespace Hours

/-- Whether both minutes lie within the day. -/
def withinDay (h : Hours) : Bool :=
  h.start.toNat < minutesPerDay && h.finish.toNat < minutesPerDay

/-- The packed hours if both minutes lie within the day; the class may end before it begins. -/
def pack? (h : Hours) : Option WeeklyHours :=
  if h.withinDay then some (.ofHours h) else none

/-- The packed hours of a class that lies within the day and does not end before it begins. -/
def toWeekly (h : Hours) : Except HoursError WeeklyHours :=
  if !h.withinDay then .error (.beyondDay h.start h.finish)
  else if h.finish < h.start then .error (.backwards h.start h.finish)
  else .ok (.ofHours h)

end Hours

end CourseRegistration
