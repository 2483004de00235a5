import CourseRegistration.Proofs.SectionSteps

/-!
# What a request does to one student

A request changes at most the student who is named in it.  `Student.Step` lists the ways, each with
what has been checked of the student and of the sections, as they were before.  What a student
holds is known from here on without another look at the workflows.
-/

namespace CourseRegistration

open Journal

/-- `s.Step r request s'` says that serving `request` on the registry `r`, in which `s` is a
student, can make `s'` of the student. -/
inductive Student.Step (r : Registry) (s : Student) : Request → Student → Prop
  /-- The student is as before. -/
  | stay {request} : s.Step r request s
  /-- The student holds a section of a new course. -/
  | enroll {key ref wanted units} (found : r.catalog.lookup key = some (ref, wanted))
      (admitted : wanted.lock.admits s.gender = true)
      (sum : addUnits? s.units wanted.units = some units) (within : units ≤ s.maxUnits)
      (fresh : s.courses.get? key.course = none)
      (clear : r.checkClashes s.id wanted s.held = .ok ()) :
      s.Step r (.enroll s.id key) (s.hold key units)
  /-- The student holds a course no more, which has cost an action. -/
  | drop {course group ref held} (holds : s.courses.get? course = some group)
      (found : r.catalog.lookup ⟨course, group⟩ = some (ref, held)) :
      s.Step r (.drop s.id course) (s.letGo course held.units).spendAction
  /-- The student holds another group of a course, which has cost an action. -/
  | switchGroup {key group ref source ref' destination total}
      (holds : s.courses.get? key.course = some group) (other : group ≠ key.group)
      (found : r.catalog.lookup ⟨key.course, group⟩ = some (ref, source))
      (found' : r.catalog.lookup key = some (ref', destination))
      (admitted : destination.lock.admits s.gender = true)
      (sum : addUnits? s.units destination.units = some total)
      (within : destination.units ≤ source.units ∨ subUnits total source.units ≤ s.maxUnits)
      (clear : r.checkClashes s.id destination
        (s.held.filter fun k => k.course != key.course) = .ok ()) :
      s.Step r (.switchGroup s.id key) (s.hold key (subUnits total source.units)).spendAction
  /-- Staff have given the student a section of a new course. -/
  | staffEnroll {key ref wanted} (found : r.catalog.lookup key = some (ref, wanted))
      (fresh : s.courses.get? key.course = none) :
      s.Step r (.staffEnroll s.id key) (s.hold key (addUnits s.units wanted.units))
  /-- Staff have dropped a course for the student. -/
  | staffDrop {course group ref held} (holds : s.courses.get? course = some group)
      (found : r.catalog.lookup ⟨course, group⟩ = some (ref, held)) :
      s.Step r (.staffDrop s.id course) (s.letGo course held.units)

/-- A step leaves the student under the same number. -/
lemma Student.Step.id_eq {r : Registry} {s s' : Student} {request : Request}
    (h : s.Step r request s') : s'.id = s.id := by
  cases h <;> rfl

namespace Registry

variable {r r' : Registry} {now : Instant} {request : Request} {records : List Record}
  {id : StudentId} {student student' : Student}

/-- The student with a number takes a step, or there is none before and after. -/
def StudentStepAt (r : Registry) (request : Request) (r' : Registry) (id : StudentId) : Prop :=
  r.students.get? id = none ∧ r'.students.get? id = none ∨
  ∃ s s', r.students.get? id = some s ∧ r'.students.get? id = some s' ∧ s.Step r request s'

lemma studentStepAt_of_get?_eq (h : r'.students.get? id = r.students.get? id) :
    r.StudentStepAt request r' id := by
  cases known : r.students.get? id with
  | none => exact .inl ⟨known, h.trans known⟩
  | some s => exact .inr ⟨s, s, known, h.trans known, .stay⟩

/-- Replacing one student is a step of that student and of no other. -/
lemma studentStepAt_putStudent (hr : r.Sound) (known : r.students.get? id = some student)
    (step : student.Step r request student')
    (hstudents : r'.students = r.students.insert student'.id student') (id' : StudentId) :
    r.StudentStepAt request r' id' := by
  have hid : student'.id = id := step.id_eq.trans (hr.filed known)
  have hget : r'.students.get? id' = if id' = id then some student' else r.students.get? id' := by
    rw [hstudents, OrderedMap.get?_insert, hid]
  by_cases h : id' = id
  · subst h
    exact .inr ⟨student, student', known, hget.trans (if_pos rfl), step⟩
  · exact studentStepAt_of_get?_eq (hget.trans (if_neg h))

/-- **Every student takes a step with every effect of a request.** -/
theorem Effect.studentStepAt (h : r.Effect now request records r') (hr : r.Sound)
    (id' : StudentId) : r.StudentStepAt request r' id' := by
  cases h with
  | nothing => exact studentStepAt_of_get?_eq rfl
  | enroll known _ found admitted sum within fresh clear =>
    obtain rfl := hr.filed known
    exact studentStepAt_putStudent hr known (.enroll found admitted sum within fresh clear) rfl id'
  | drop known _ _ holds found =>
    obtain rfl := hr.filed known
    exact studentStepAt_putStudent hr known (.drop holds found) rfl id'
  | switchGroup known _ _ holds other found found' admitted sum within clear =>
    obtain rfl := hr.filed known
    exact studentStepAt_putStudent hr known
      (.switchGroup holds other found found' admitted sum within clear) rfl id'
  | staffEnroll known found fresh =>
    obtain rfl := hr.filed known
    exact studentStepAt_putStudent hr known (.staffEnroll found fresh) rfl id'
  | raise => exact studentStepAt_of_get?_eq rfl
  | raiseAndEnroll known found fresh =>
    obtain rfl := hr.filed known
    exact studentStepAt_putStudent hr known (.staffEnroll found fresh) rfl id'
  | staffDrop known holds found =>
    obtain rfl := hr.filed known
    exact studentStepAt_putStudent hr known (.staffDrop holds found) rfl id'
  | resize => exact studentStepAt_of_get?_eq rfl

/-- Every student after a request is one from before who has taken a step. -/
lemma Effect.student_step (h : r.Effect now request records r') (hr : r.Sound)
    (known' : r'.students.get? id = some student') :
    ∃ student, r.students.get? id = some student ∧ student.Step r request student' := by
  rcases h.studentStepAt hr id with ⟨-, hnone⟩ | ⟨s, s', known, hstep', step⟩
  · rw [hnone] at known'
    cases known'
  · rw [known', Option.some.injEq] at hstep'
    subst hstep'
    exact ⟨s, known, step⟩

lemma students_setExamTime (r : Registry) (ref : Catalog.Ref) (time : Int64) :
    (r.setExamTime ref time).students = r.students := by
  unfold Registry.setExamTime
  split <;> rfl

end Registry

end CourseRegistration
