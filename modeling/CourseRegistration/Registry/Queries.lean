import CourseRegistration.Registry.Basic

/-!
# Queries

What can be read from a registry.  A student's courses are put together from the student's
holdings and the sections, so this query can find the two in disagreement.
-/

namespace CourseRegistration.Registry

open Check

/-- The sections that the student holds, with the student's place in each, by course. -/
def coursesOf (r : Registry) (id : StudentId) : Check (List StudentCourse) := do
  let student ← r.student id
  student.held.mapM fun key => do
    let (_, s) ← r.heldSection id key
    s.seenBy id

/-- Everyone who has a place in a section. -/
def rosterOf (r : Registry) (key : SectionKey) : Check Roster := do
  let (_, s) ← r.offered key
  return s.roster

/-- The sections that a department offers, by course and group. -/
def offerings (r : Registry) (department : DepartmentId) : List Offering :=
  (r.catalog.inDepartment department).map Section.view

/-- Whether the student's enrollment window is open. -/
def windowOpen (r : Registry) (now : Instant) (id : StudentId) : Check Bool := do
  let student ← r.student id
  return student.windowOpen now

/-- The event that reports a registry as built. -/
def loadedEvent (r : Registry) : Event :=
  .loaded r.departments.size r.catalog.size r.students.size

/-- The event that reports a registry as in service. -/
def servingEvent (r : Registry) : Event :=
  .serving r.students.size r.catalog.size

end CourseRegistration.Registry
