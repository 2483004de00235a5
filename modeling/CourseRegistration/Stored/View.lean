import CourseRegistration.Registry.Basic
import CourseRegistration.Stored.Basic

/-!
# Views as JSON

What queries answer, as JSON values.  Views are only written, never read back.
-/

namespace CourseRegistration

open Json

/-- The number value of a count. -/
def Json.nat (n : Nat) : Json := .int n

/-- The days and minutes that a word holds. -/
def WeeklyHours.toJson (w : WeeklyHours) : Json :=
  encode w.toHours

namespace Offering

/-- The members of the view of a section. -/
def members (v : Offering) : List (String × Json) :=
  [("course_id", encode v.key.course), ("group_id", encode v.key.group),
    ("department", encode v.department), ("lecturer", encode v.lecturer),
    ("units", encode v.units), ("capacity", encode v.capacity),
    ("reserve_capacity", encode v.reserve), ("registered_count", .nat v.registeredCount),
    ("waitlist_count", .nat v.waitlistCount), ("exam_time", encode v.examTime),
    ("schedule", v.hours.toJson)]

/-- The view of a section. -/
def toJson (v : Offering) : Json :=
  .ofMembers v.members

end Offering

/-- The registered and the waiting students. -/
def Roster.toJson (r : Roster) : Json :=
  .ofMembers [("registered", encode r.registered), ("waitlist", encode r.waitlist)]

/-- The view of a section, and the student's place. -/
def StudentCourse.toJson (c : StudentCourse) : Json :=
  .ofMembers [("course", c.course.toJson), ("waitlist_position", .nat c.position)]

/-- What a student holds; held groups are named by their course. -/
def Student.toJson (s : Student) : Json :=
  .ofMembers
    [("id", encode s.id), ("registered_units", encode s.units), ("max_units", encode s.maxUnits),
      ("remaining_actions", encode s.actions),
      ("courses", .ofMembers (s.courses.entries.map fun (c, g) => (c.text, encode g)))]

end CourseRegistration
