import CourseRegistration.Eligibility
import CourseRegistration.Identifier
import CourseRegistration.Json.Coded
import CourseRegistration.Timetable.WeeklyHours

/-!
# Stored identifiers, eligibility and hours

Identifiers are stored as bare numbers, eligibility and weekdays by name, and hours unpacked, as a
record of days, first minute and last minute.
-/

namespace CourseRegistration

open Json

/-! ## Identifiers -/

instance : Coded CourseId where
  encode c := encode c.number
  decode? j := (decode? j).map CourseId.mk

instance : Coded GroupId where
  encode g := encode g.number
  decode? j := (decode? j).map GroupId.mk

instance : Coded DepartmentId where
  encode d := encode d.number
  decode? j := (decode? j).map DepartmentId.mk

instance : Coded StudentId where
  encode s := encode s.number
  decode? j := (decode? j).map StudentId.mk

/-! ## Eligibility -/

instance : Coded Gender where
  encode g := text g.name
  decode? j := (alternativeName? j).bind Gender.ofName?

instance : Coded GenderLock where
  encode l := text l.name
  decode? j := (alternativeName? j).bind GenderLock.ofName?

/-! ## Hours -/

/-- A weekday is written and read as a string only. -/
instance : Coded Weekday where
  encode d := text d.shortName
  decode?
    | .string (some name) => Weekday.ofName? name
    | _ => none

/-- The stored names of the parts of written hours, in order. -/
def Hours.fieldNames : List String := ["days", "start_minute", "end_minute"]

instance : Coded Hours where
  encode h := .ofMembers
    [("days", encode h.days), ("start_minute", encode h.start), ("end_minute", encode h.finish)]
  decode? j := do
    let fields ← record? Hours.fieldNames j
    return ⟨← fields.required "days", ← fields.required "start_minute",
      ← fields.required "end_minute"⟩

end CourseRegistration
