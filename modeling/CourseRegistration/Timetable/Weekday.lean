/-!
# Weekdays

The week begins on Sunday.  A day is written by its three-letter name, and read from the
three-letter or the full English name in any mixture of upper and lower case.
-/

namespace CourseRegistration

/-- A day of the week. -/
inductive Weekday where
  | sunday
  | monday
  | tuesday
  | wednesday
  | thursday
  | friday
  | saturday
  deriving DecidableEq, Inhabited

namespace Weekday

/-- The days of the week in order. -/
def all : List Weekday :=
  [sunday, monday, tuesday, wednesday, thursday, friday, saturday]

theorem mem_all (d : Weekday) : d ∈ all := by
  cases d <;> decide

/-- How many days of the week come before this one. -/
def index : Weekday → Nat
  | sunday => 0
  | monday => 1
  | tuesday => 2
  | wednesday => 3
  | thursday => 4
  | friday => 5
  | saturday => 6

/-- The three-letter name. -/
def shortName : Weekday → String
  | sunday => "Sun"
  | monday => "Mon"
  | tuesday => "Tue"
  | wednesday => "Wed"
  | thursday => "Thu"
  | friday => "Fri"
  | saturday => "Sat"

/-- The full name. -/
def fullName : Weekday → String
  | sunday => "Sunday"
  | monday => "Monday"
  | tuesday => "Tuesday"
  | wednesday => "Wednesday"
  | thursday => "Thursday"
  | friday => "Friday"
  | saturday => "Saturday"

/-- The letters of a name with the case of English letters forgotten. -/
def caseless (name : String) : List Char :=
  name.toList.map Char.toLower

/-- Whether `name` names `d`, in short or in full. -/
def isNamed (d : Weekday) (name : String) : Bool :=
  caseless name = caseless d.shortName || caseless name = caseless d.fullName

/-- The day that `name` names. -/
def ofName? (name : String) : Option Weekday :=
  all.find? (·.isNamed name)

@[simp] theorem ofName?_shortName (d : Weekday) : ofName? d.shortName = some d := by
  cases d <;> decide +kernel

end Weekday

end CourseRegistration
