import CourseRegistration.Proofs.Atomicity
import CourseRegistration.Proofs.GroupChange

/-!
# What actions are spent on

A student has a number of actions, and one is spent whenever the student gives up a course or
changes its group.  The rule that an action must be left is looked at before anything else, and the
action is only taken off at the very end; in between a request can fail in many ways, or wait for
the journal for good.

What a request costs is read off its records (`Effect.actions`): a request that costs an action has
one record if it is met and none otherwise.  So the actions that are left, together with those
spent, are always those from the start (`actions_run`).  Nothing of this needs rosters and holdings
to agree, and it is stated for every registry that can be put together at all
(`run_actions_spent`).
-/

namespace CourseRegistration

open Journal Check

/-- The request costs the student an action if it is met. -/
def Request.costs (id : StudentId) : Request → Bool
  | .drop id' _ | .switchGroup id' _ => id' = id
  | .enroll .. | .staffEnroll .. | .staffDrop .. | .resize .. => false

namespace Registry

/-- Every student is filed under the student's own number. -/
def StudentsFiled (r : Registry) : Prop :=
  ∀ id student, r.students.get? id = some student → student.id = id

/-- The registry of any sections and any students.  Of two students with one number the later one
is kept. -/
def assembled (departments : OrderedMap DepartmentId String) (catalog : Catalog)
    (students : List Student) : Registry :=
  ⟨departments, catalog, students.foldl (fun m s => m.insert s.id s) .empty⟩

variable {r r' : Registry} {now : Instant} {request : Request} {records : List Record}
  {id id' : StudentId} {s student : Student}

namespace StudentsFiled

lemma insert (filed : r.StudentsFiled) (student : Student) : StudentsFiled
    { r with students := r.students.insert student.id student } := by
  intro id s known
  rw [OrderedMap.get?_insert] at known
  split_ifs at known with hid
  · cases known
    exact hid.symm
  · exact filed id s known

lemma assembled (departments : OrderedMap DepartmentId String) (catalog : Catalog)
    (students : List Student) : (assembled departments catalog students).StudentsFiled := by
  have fold : ∀ m : OrderedMap StudentId Student, StudentsFiled ⟨departments, catalog, m⟩ →
      StudentsFiled ⟨departments, catalog, students.foldl (fun m s => m.insert s.id s) m⟩ := by
    induction students with
    | nil => exact fun m hm => hm
    | cons s rest ih => exact fun m hm => ih _ (hm.insert s)
  exact fold .empty nofun

/-- A student who is put in the place of one with the same number pays for no other. -/
lemma actions_insert (filed : r.StudentsFiled) (known : r.students.get? id = some s)
    (known' : r.students.get? id' = some student) (student' : Student)
    (hid : student'.id = student.id) (cost : Nat)
    (paid : student'.actions.toNat + cost = student.actions.toNat) :
    ∃ s', (r.students.insert student'.id student').get? id = some s' ∧
      s'.actions.toNat + (if decide (id' = id) then cost else 0) = s.actions.toNat := by
  rw [hid, filed id' student known']
  by_cases h : id' = id
  · subst h
    obtain rfl := Option.some.inj (known.symm.trans known')
    exact ⟨student', OrderedMap.get?_insert_self .., by rw [if_pos (decide_eq_true rfl), paid]⟩
  · refine ⟨s, (OrderedMap.get?_insert_of_ne _ _ (Ne.symm h)).trans known, ?_⟩
    rw [decide_eq_false h, if_neg Bool.false_ne_true, Nat.add_zero]

/-- Nobody pays for a student who keeps the actions. -/
lemma actions_insert_free (filed : r.StudentsFiled) (known : r.students.get? id = some s)
    (known' : r.students.get? id' = some student) (student' : Student)
    (hid : student'.id = student.id) (same : student'.actions = student.actions) :
    ∃ s', (r.students.insert student'.id student').get? id = some s' ∧
      s'.actions.toNat + 0 = s.actions.toNat := by
  have hinsert := filed.actions_insert known known' student' hid 0 (congrArg UInt8.toNat same)
  simpa only [ite_self] using hinsert

end StudentsFiled

lemma Effect.studentsFiled (h : r.Effect now request records r') (filed : r.StudentsFiled) :
    r'.StudentsFiled := by
  cases h with
  | nothing | raise | resize => exact filed
  | enroll | drop | switchGroup | staffEnroll | raiseAndEnroll | staffDrop => exact filed.insert _

/-- **The records of a request tell what it costs a student**: as many actions as there are records,
if the request is one that costs the student actions. -/
theorem Effect.actions (h : r.Effect now request records r') (filed : r.StudentsFiled)
    (known : r.students.get? id = some s) :
    ∃ s', r'.students.get? id = some s' ∧
      s'.actions.toNat + (if request.costs id then records.length else 0) = s.actions.toNat := by
  cases h with
  | nothing => exact ⟨s, known, by rw [List.length_nil, ite_self, Nat.add_zero]⟩
  | enroll known' | staffEnroll known' | raiseAndEnroll known' | staffDrop known' =>
    exact filed.actions_insert_free known known' _ rfl rfl
  | @drop _ course student _ _ held known' _ able =>
    exact filed.actions_insert known known' (student.letGo course held.units).spendAction rfl 1
      (Student.toNat_actions_spendAction able)
  | @switchGroup _ key student _ _ source _ _ total _ known' _ able =>
    exact filed.actions_insert known known'
      (student.hold key (Student.subUnits total source.units)).spendAction rfl 1
      (Student.toNat_actions_spendAction able)
  | raise | resize => exact ⟨s, known, rfl⟩

end Registry

/-! ## Calls -/

/-- The report ends with an answer. -/
def Report.isDone {α : Type} (p : Report α) : Bool :=
  match p.outcome with
  | .done _ => true
  | .failed _ | .overflow | .waiting => false

/-- The call costs the student an action if it is met. -/
def Call.costs (id : StudentId) : Call → Bool
  | .request _ asked => asked.costs id
  | .query _ => false

lemma Report.isDone_iff {α : Type} {p : Report α} :
    p.isDone = true ↔ ∃ answer, p.outcome = .done answer := by
  unfold isDone
  split <;> simp_all

lemma Report.isDone_map {α β : Type} (f : α → β) (p : Report α) :
    (p.map f).isDone = p.isDone := by
  unfold isDone Report.map Outcome.map
  cases p.outcome <;> rfl

namespace Office

variable {o : Office} {id : StudentId} {s : Student}

/-- A request that costs an action comes down to one change. -/
lemma changes_of_costs {request : Request} {plan : Plan Registry Answer}
    (costs : request.costs id = true) (h : o.decide request = .ok plan) :
    ∃ c, plan.changes = [c] := by
  cases request with
  | drop id' course =>
    obtain ⟨c, hchanges, -⟩ := decide_drop_eq_ok h
    exact ⟨c, hchanges⟩
  | switchGroup id' key =>
    obtain ⟨c, hchanges, -⟩ := decide_switchGroup_eq_ok h
    exact ⟨c, hchanges⟩
  | enroll | staffEnroll | staffDrop | resize => cases costs

/-- A request that costs an action is recorded once if it is met, and else not at all. -/
lemma length_taken_of_costs (o : Office) (cancelled : Bool) {request : Request}
    (costs : request.costs id = true) :
    (o.handle cancelled request).1.taken.length =
      if (o.handle cancelled request).1.isDone then 1 else 0 := by
  split_ifs with hdone
  · obtain ⟨answer, houtcome⟩ := Report.isDone_iff.1 hdone
    obtain ⟨plan, hdecide, -, -, htaken, -⟩ := handle_of_done houtcome
    obtain ⟨c, hchanges⟩ := changes_of_costs costs hdecide
    rw [htaken, hchanges]
    rfl
  · have failed : ∀ answer, (o.handle cancelled request).1.outcome ≠ .done answer :=
      fun answer h => hdone (Report.isDone_iff.2 ⟨answer, h⟩)
    rcases o.handle_unfinished cancelled request failed with
      ⟨-, hnone⟩ | ⟨_, _, _, _, rfl, -⟩
    · rw [hnone]
      rfl
    · cases costs

/-- What a call costs a student. -/
lemma actions_serve (filed : o.registry.StudentsFiled)
    (known : o.registry.students.get? id = some s) (call : Call) :
    (o.serve call).2.registry.StudentsFiled ∧
    ∃ s', (o.serve call).2.registry.students.get? id = some s' ∧
      s'.actions.toNat + (if call.costs id && (o.serve call).1.isDone then 1 else 0) =
        s.actions.toNat := by
  cases call with
  | query q => exact ⟨filed, s, known, rfl⟩
  | request cancelled request =>
    have effect := o.handle_effect cancelled request
    obtain ⟨s', known', hactions⟩ := effect.actions filed known
    refine ⟨effect.studentsFiled filed, s', known', ?_⟩
    show _ + (if request.costs id && ((o.handle cancelled request).1.map Response.met).isDone
      then 1 else 0) = _
    rw [Report.isDone_map, ← hactions]
    cases costs : request.costs id with
    | false => rfl
    | true => rw [Bool.true_and, if_pos rfl, length_taken_of_costs o cancelled costs]

/-! ## Runs -/

/-- How many calls of a run have cost the student an action. -/
def spent (id : StudentId) (o : Office) : List Turn → Nat
  | [] => 0
  | .call call :: rest =>
    let (report, o') := o.serve call
    (if call.costs id && report.isDone then 1 else 0) + o'.spent id rest
  | t :: rest => (o.turn t).2.spent id rest

/-- **What is left of a student's actions and what has been spent add up to what there was.** -/
theorem actions_run (filed : o.registry.StudentsFiled)
    (known : o.registry.students.get? id = some s) (turns : List Turn) :
    (o.run turns).2.registry.StudentsFiled ∧
    ∃ s', (o.run turns).2.registry.students.get? id = some s' ∧
      s'.actions.toNat + o.spent id turns = s.actions.toNat := by
  induction turns generalizing o s with
  | nil => exact ⟨filed, s, known, rfl⟩
  | cons t rest ih =>
    cases t with
    | call call =>
      obtain ⟨filed₁, s₁, known₁, hcall⟩ := actions_serve filed known call
      obtain ⟨filed', s', known', hrest⟩ := ih filed₁ known₁
      refine ⟨filed', s', known', ?_⟩
      show s'.actions.toNat + ((if call.costs id && (o.serve call).1.isDone then 1 else 0) +
        (o.serve call).2.spent id rest) = s.actions.toNat
      omega
    | examTime ref time =>
      have hstudents := o.registry.students_setExamTime ref time
      refine ih (o := { o with registry := o.registry.setExamTime ref time }) ?_ ?_
      · intro id student known
        exact filed id student ((congrArg (·.get? id) hstudents).symm.trans known)
      · exact (congrArg (·.get? id) hstudents).trans known
    | clock now => exact ih (o := { o with clock := now }) filed known
    | outbox outbox => exact ih (o := { o with outbox := outbox }) filed known

/-- **Actions are spent on nothing but courses that the student gives up and changes of group that
the student makes.**  In every run from any sections and any students, whatever the journal does,
the actions that a student has left and those that the student's own calls have cost add up to
those from the start; so no more is spent than there was.  Any further call costs one action if it
is such a call and is met, and none otherwise. -/
theorem run_actions_spent (departments : OrderedMap DepartmentId String) (catalog : Catalog)
    (students : List Student) (clock : Instant) (outbox : Outbox) (turns : List Turn)
    (id : StudentId) (student : Student)
    (known : (Registry.assembled departments catalog students).students.get? id = some student) :
    let start : Office := ⟨.assembled departments catalog students, clock, outbox⟩
    let o := (start.run turns).2
    start.spent id turns ≤ student.actions.toNat ∧
    ∃ s, o.registry.students.get? id = some s ∧
      s.actions.toNat + start.spent id turns = student.actions.toNat ∧
      ∀ call, ∃ s', (o.serve call).2.registry.students.get? id = some s' ∧
        (call.costs id = true ∧ (∃ answer, (o.serve call).1.outcome = .done answer) →
          s'.actions.toNat + 1 = s.actions.toNat) ∧
        (¬ (call.costs id = true ∧ ∃ answer, (o.serve call).1.outcome = .done answer) →
          s'.actions = s.actions) := by
  intro start o
  obtain ⟨filed, s, hs, hspent⟩ :=
    actions_run (o := start) (.assembled departments catalog students) known turns
  refine ⟨Nat.le.intro ((Nat.add_comm _ _).trans hspent), s, hs, hspent, fun call => ?_⟩
  obtain ⟨-, s', known', hcall⟩ := actions_serve filed hs call
  rw [← Report.isDone_iff, ← Bool.and_eq_true]
  refine ⟨s', known', fun hcosts => ?_, fun hfree => ?_⟩
  · rwa [if_pos hcosts] at hcall
  · rw [if_neg hfree] at hcall
    exact UInt8.toNat_inj.1 hcall

/-- Student 1 has two actions.  The first is spent; then staff enroll the student again and the
journal is closed, and nothing more is spent. -/
theorem run_actions_spent_small :
    let start : Office := ⟨.assembled Registry.small.departments Registry.small.catalog
      Registry.small.students.values, .epoch, .script .accepting⟩
    let turns : List Turn := [
      .call (.request false (.drop ⟨1⟩ ⟨100⟩)),
      .call (.request false (.staffEnroll ⟨1⟩ ⟨⟨100⟩, ⟨2⟩⟩)),
      .outbox (.script ⟨[], .refuse .closed⟩),
      .call (.request false (.drop ⟨1⟩ ⟨100⟩))]
    start.spent ⟨1⟩ turns = 1 ∧
    ∃ s, (start.run turns).2.registry.students.get? ⟨1⟩ = some s ∧
      s.actions.toNat + start.spent ⟨1⟩ turns = 2 := by
  refine ⟨by decide +kernel, ?_⟩
  obtain ⟨-, s, hs, hactions, -⟩ := run_actions_spent Registry.small.departments
    Registry.small.catalog Registry.small.students.values .epoch (.script .accepting) _ ⟨1⟩ _ rfl
  exact ⟨s, hs, hactions⟩

end Office

end CourseRegistration
