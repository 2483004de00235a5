import CourseRegistration.Ordered.Map
import CourseRegistration.Section.Basic

/-!
# The catalog

The catalog files every section under its course, in the order in which the groups of the course
were listed.  Two listed sections may have one key; looking up the key finds the first of them.

A section is referred to by its course and its position among the groups of the course.  Whatever
way a section is reached, by key, among the groups of its course or in a department's listing, its
reference is the same, so a change made through one way is seen through all.
-/

namespace CourseRegistration

/-- Every section, by course. -/
structure Catalog where
  courses : OrderedMap CourseId (List Section)
  deriving DecidableEq

namespace Catalog

/-- A section, by its course and its position among the groups of the course. -/
structure Ref where
  course : CourseId
  /-- How many groups of the course were listed before it. -/
  index : Nat
  deriving DecidableEq

/-- The catalog without sections. -/
def empty : Catalog := ⟨.empty⟩

instance : Inhabited Catalog := ⟨empty⟩

/-- The groups of a course in their order. -/
def groups (c : Catalog) (course : CourseId) : List Section :=
  (c.courses.get? course).getD []

/-- Files a section behind the groups of its course. -/
def add (c : Catalog) (s : Section) : Catalog :=
  ⟨c.courses.insert s.key.course (c.groups s.key.course ++ [s])⟩

/-- The catalog of the listed sections. -/
def ofSections (sections : List Section) : Catalog :=
  sections.foldl add empty

/-! ## Looking up -/

/-- The section of a reference. -/
def get? (c : Catalog) (r : Ref) : Option Section :=
  (c.groups r.course)[r.index]?

/-- The reference of the first section with the given key. -/
def find? (c : Catalog) (key : SectionKey) : Option Ref :=
  ((c.groups key.course).findIdx? fun s => s.key.group = key.group).map fun i => ⟨key.course, i⟩

/-- The first section with the given key, and its reference. -/
def lookup (c : Catalog) (key : SectionKey) : Option (Ref × Section) :=
  (c.find? key).bind fun r => (c.get? r).map fun s => (r, s)

/-! ## Changing -/

/-- The catalog with another section at a reference. -/
def set (c : Catalog) (r : Ref) (s : Section) : Catalog :=
  match c.courses.get? r.course with
  | none => c
  | some groups => ⟨c.courses.insert r.course (groups.set r.index s)⟩

/-! ## Listings -/

/-- All sections, course by course. -/
def sections (c : Catalog) : List Section :=
  c.courses.entries.flatMap fun (_, groups) => groups

/-- The number of sections. -/
def size (c : Catalog) : Nat :=
  c.sections.length

/-- Whether `s` may stand before `t` in a listing by course and group. -/
def byKey (s t : Section) : Bool :=
  rank s.key ≤ rank t.key

/-- The sections of a department by course and group; those with one key stay in their order. -/
def inDepartment (c : Catalog) (department : DepartmentId) : List Section :=
  (c.sections.filter fun s => s.department = department).mergeSort byKey

/-- Whether `s` may stand before `t` in a listing by department, course and group. -/
def byDepartment (s t : Section) : Bool :=
  rank s.department < rank t.department || (rank s.department = rank t.department && byKey s t)

/-- All sections by department, course and group. -/
def listing (c : Catalog) : List Section :=
  c.sections.mergeSort byDepartment

end Catalog

end CourseRegistration
