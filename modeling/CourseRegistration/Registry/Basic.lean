import CourseRegistration.Catalog
import CourseRegistration.Section.Moves
import CourseRegistration.Student

/-!
# The registry

The registry is the whole state of registration: departments, sections and students.  Who has a
place in which section is kept twice, with the section and with the student.  Nothing in this file
keeps the two in step; the workflows do.
-/

namespace CourseRegistration

open Check

/-- Departments, sections and students. -/
structure Registry where
  departments : OrderedMap DepartmentId String
  catalog : Catalog
  students : OrderedMap StudentId Student
  deriving DecidableEq, Inhabited

namespace Registry

/-! ## Looking up -/

/-- The student with the given number. -/
def student (r : Registry) (id : StudentId) : Check Student :=
  expect (r.students.get? id) (.unknownStudent id)

/-- The section with the given key, for someone who asks for it. -/
def offered (r : Registry) (key : SectionKey) : Check (Catalog.Ref × Section) :=
  expect (r.catalog.lookup key) .unknownSection

/-- The section with the given key, which the student holds. -/
def heldSection (r : Registry) (student : StudentId) (key : SectionKey) :
    Check (Catalog.Ref × Section) :=
  expect (r.catalog.lookup key) (.fault (.sectionMissing student key))

/-! ## Changing -/

/-- The registry with another section at a reference. -/
def putSection (r : Registry) (ref : Catalog.Ref) (s : Section) : Registry :=
  { r with catalog := r.catalog.set ref s }

/-- The registry with another student of the same number. -/
def putStudent (r : Registry) (s : Student) : Registry :=
  { r with students := r.students.insert s.id s }

/-- The registry with another time for the exam of a section. -/
def setExamTime (r : Registry) (ref : Catalog.Ref) (time : Int64) : Registry :=
  match r.catalog.get? ref with
  | none => r
  | some s => r.putSection ref { s with examTime := time }

/-- What a plan for one section does to the registry. -/
def atSection {α : Type} (r : Registry) (ref : Catalog.Ref) (p : Plan Section α) :
    Plan Registry α :=
  ⟨p.changes.map (·.map (r.putSection ref)), p.answer⟩

/-- What a plan for two sections does to the registry. -/
def atSections {α : Type} (r : Registry) (ref ref' : Catalog.Ref) (p : Plan (Section × Section) α) :
    Plan Registry α :=
  ⟨p.changes.map (·.map fun (s, t) => (r.putSection ref s).putSection ref' t), p.answer⟩

end Registry

/-- The same plan, where the last change also brings in the student as changed by it. -/
def Plan.settle {α : Type} (p : Plan Registry α) (student : Student) : Plan Registry Unit :=
  ⟨Change.mapAll id (·.putStudent student) p.changes, ()⟩

end CourseRegistration
