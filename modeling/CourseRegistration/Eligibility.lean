/-!
# Eligibility

A section may be open to everyone or kept for one of two categories of students.
-/

namespace CourseRegistration

/-- The eligibility category of a student. -/
inductive Gender where
  | male
  | female
  deriving DecidableEq, Inhabited

/-- Whom a section is open to. -/
inductive GenderLock where
  | unlocked
  | maleOnly
  | femaleOnly
  deriving DecidableEq, Inhabited

namespace GenderLock

/-- Whether a student of the given category may hold a place in a section with this lock. -/
def admits : GenderLock → Gender → Bool
  | unlocked, _ => true
  | maleOnly, g => g = .male
  | femaleOnly, g => g = .female

end GenderLock

namespace Gender

/-- The name of a category in stored documents. -/
def name : Gender → String
  | male => "male"
  | female => "female"

/-- The category of a stored name. -/
def ofName? (s : String) : Option Gender :=
  if s = "male" then some male
  else if s = "female" then some female
  else none

@[simp] theorem ofName?_name (g : Gender) : ofName? g.name = some g := by
  cases g <;> rfl

end Gender

namespace GenderLock

/-- The name of a lock in stored documents. -/
def name : GenderLock → String
  | unlocked => "unlocked"
  | maleOnly => "male_only"
  | femaleOnly => "female_only"

/-- The lock of a stored name. -/
def ofName? (s : String) : Option GenderLock :=
  if s = "unlocked" then some unlocked
  else if s = "male_only" then some maleOnly
  else if s = "female_only" then some femaleOnly
  else none

@[simp] theorem ofName?_name (l : GenderLock) : ofName? l.name = some l := by
  cases l <;> rfl

end GenderLock

end CourseRegistration
