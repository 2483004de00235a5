import CourseRegistration.Proofs.Snapshot

/-!
# Rosters and courses in a running office

An office that serves a registry built from a snapshot starts consistent and stays so, whatever is
asked of it and whatever the journal answers.  This module puts that in the words of the registry
itself, as `Registry.Agreeing`: the roster of a section and the courses of a student say the same,
and nobody has a second place.  It also closes the account of the faults.  A fault is found only
where the two sides disagree, so in a consistent registry no request (`decide_faultless`) and no
query (`ask_not_faulty`) meets one.

The headline is `run_agreeing`.
-/

namespace CourseRegistration

open Journal Check

namespace Registry

/-- The student is on the roster of the section with the key, registered or waiting. -/
def OnRoster (r : Registry) (id : StudentId) (key : SectionKey) : Prop :=
  ∃ ref s, r.catalog.get? ref = some s ∧ s.key = key ∧
    (id ∈ s.seats.registered ∨ id ∈ s.seats.waitlist)

/-- The student is known, and the student's courses have the group for the course. -/
def Takes (r : Registry) (id : StudentId) (key : SectionKey) : Prop :=
  ∃ student, r.students.get? id = some student ∧
    student.courses.get? key.course = some key.group

/-- Rosters and courses say the same, and nobody has a second place. -/
structure Agreeing (r : Registry) : Prop where
  /-- A student is on the roster of a section exactly if the student's courses say so. -/
  onRoster_iff : ∀ id key, r.OnRoster id key ↔ r.Takes id key
  /-- Nobody is both registered and waiting in a section. -/
  separate : ∀ ref s, r.catalog.get? ref = some s →
    ∀ id ∈ s.seats.registered, id ∉ s.seats.waitlist
  /-- Nobody waits twice in a section. -/
  nodup : ∀ ref s, r.catalog.get? ref = some s → s.seats.waitlist.Nodup
  /-- Nobody is on the rosters of two groups of one course. -/
  one_group : ∀ id key key', r.OnRoster id key → r.OnRoster id key' →
    key.course = key'.course → key = key'
  /-- A key belongs to one section only. -/
  one_section : ∀ ref s ref' s', r.catalog.get? ref = some s → r.catalog.get? ref' = some s' →
    s.key = s'.key → ref = ref'

variable {r : Registry} {id : StudentId} {key : SectionKey}

lemma Sound.onRoster_iff (hr : r.Sound) : r.OnRoster id key ↔ r.ledger.HasPlace id key := by
  constructor
  · rintro ⟨ref, s, hs, rfl, hplace⟩
    exact ⟨s.seats, seats_ledger (hr.catalog.lookup_key hs), Seats.holds_iff.2 hplace⟩
  · rintro ⟨seats, hseats, hholds⟩
    obtain ⟨⟨ref, s⟩, hfound, rfl⟩ := Option.map_eq_some_iff.1 hseats
    exact ⟨ref, s, Catalog.get?_of_lookup hfound, hr.catalog.key_of_lookup hfound,
      Seats.holds_iff.1 hholds⟩

lemma takes_iff : r.Takes id key ↔ r.ledger.held id key.course = some key.group :=
  Option.bind_eq_some_iff.symm

lemma Consistent.agreeing (hr : r.Consistent) : r.Agreeing := by
  have orderly : ∀ {ref s}, r.catalog.get? ref = some s → s.seats.Orderly := fun hs =>
    hr.agrees.orderly (seats_ledger (hr.sound.catalog.lookup_key hs))
  refine ⟨fun id key => ?_, fun ref s hs id => (orderly hs).separate,
    fun ref s hs => (orderly hs).nodup, fun id key key' h h' hcourse => ?_,
    fun ref s ref' s' hs hs' hkey => hr.sound.catalog.distinct hs hs' hkey⟩
  · rw [hr.sound.onRoster_iff, takes_iff]
    exact hr.agrees.hasPlace_iff id key
  · rw [hr.sound.onRoster_iff] at h h'
    exact hr.agrees.group_unique h' h hcourse

end Registry

/-! ## No faults -/

/-- Carrying a decision out adds no fault to it. -/
lemma execute_not_faulty {σ α : Type} {decision : Check (Plan σ α)} (h : decision.Faultless)
    (cancelled : Bool) (s : σ) (o : Outbox) : ¬ (execute cancelled decision s o).1.Faulty := by
  rintro ⟨what, hwhat⟩
  rcases decision with (⟨cause, notes⟩ | _) | plan
  · cases hwhat
    exact h what notes rfl
  · cases hwhat
  · -- a plan ends well, or with what the journal said
    change Report.outcomeOf plan.answer (carryOut cancelled plan.changes s o).stop = _ at hwhat
    generalize (carryOut cancelled plan.changes s o).stop = stop at hwhat
    rcases stop with _ | (why | _) <;> cases hwhat

lemma Report.announcing_faulty {α : Type} {p : Report α} {action : Action} {subject : Subject} :
    (p.announcing action subject).Faulty ↔ p.Faulty := by
  unfold Report.announcing
  split <;> rfl

lemma Report.map_faulty {α β : Type} {p : Report α} {f : α → β} : (p.map f).Faulty ↔ p.Faulty := by
  unfold Report.Faulty Report.map Outcome.map
  cases p.outcome <;> simp

namespace Office

variable {o : Office}

lemma query_not_faulty {α : Type} {x : Check α} (h : x.Faultless) : ¬ (query x).Faulty := by
  rintro ⟨what, hwhat⟩
  rcases x with (⟨cause, notes⟩ | _) | a
  · cases hwhat
    exact h what notes rfl
  · cases hwhat
  · cases hwhat

/-- In a consistent registry no request meets a fault. -/
lemma decide_faultless (hr : o.registry.Consistent) (request : Request) :
    (o.decide request).Faultless := by
  cases request with
  | enroll id key => exact hr.enroll_faultless.bind fun _ _ => .pure _
  | drop id course => exact hr.drop_faultless.bind fun _ _ => .pure _
  | switchGroup id key => exact hr.switchGroup_faultless.bind fun _ _ => .pure _
  | staffEnroll id key => exact Registry.staffEnroll_faultless.bind fun _ _ => .pure _
  | staffDrop id course => exact hr.staffDrop_faultless.bind fun _ _ => .pure _
  | resize key capacity =>
    refine Faultless.expect_bind nofun fun (ref, s) _ => ?_
    exact Registry.resize_faultless.bind fun _ _ => .pure _

/-- In a consistent registry no query meets a fault. -/
lemma ask_not_faulty (hr : o.registry.Consistent) (q : Query) : ¬ (o.ask q).Faulty := by
  have known : ∀ id, (o.registry.student id).Faultless := by
    intro id
    unfold Registry.student expect
    split
    · exact .ok _
    · exact fun what notes h => by cases h
  cases q with
  | courses id =>
    rw [ask, Report.map_faulty, coursesOf, Report.announcing_faulty]
    exact query_not_faulty hr.coursesOf_faultless
  | summary id =>
    rw [ask, Report.map_faulty]
    exact query_not_faulty (known id)
  | roster key =>
    rw [ask, Report.map_faulty]
    exact query_not_faulty (Faultless.expect_bind nofun fun _ _ => .pure _)
  | offerings department =>
    rw [ask, Report.map_faulty]
    exact query_not_faulty (.ok _)
  | window id =>
    rw [ask, Report.map_faulty]
    exact query_not_faulty ((known id).bind fun _ _ => .pure _)

/-- No call of an office with a consistent registry meets a fault. -/
lemma serve_not_faulty (hr : o.registry.Consistent) (call : Call) : ¬ (o.serve call).1.Faulty := by
  cases call with
  | query q => exact ask_not_faulty hr q
  | request cancelled request =>
    have hexecute := execute_not_faulty (decide_faultless hr request) cancelled o.registry o.outbox
    show ¬ ((o.handle cancelled request).1.map Response.met).Faulty
    rw [Report.map_faulty]
    unfold handle carry
    dsimp only
    split
    · rwa [Report.announcing_faulty]
    · exact hexecute

/-! ## Runs -/

/-- **In every state of every run of an office, rosters and courses agree, and no call of the run
meets a fault.**  The registry is any that a snapshot makes; the run is any list of calls, of
settings of exam times, and of changes of the clock and the outbox. -/
theorem run_agreeing {snapshot : Snapshot} {r : Registry} (built : snapshot.build = .ok r)
    (clock : Instant) (outbox : Outbox) (turns : List Turn) :
    let (reports, o) := run ⟨r, clock, outbox⟩ turns
    o.registry.Agreeing ∧ ∀ report ∈ reports, ¬ report.Faulty := by
  have hr : r.Consistent := Snapshot.build_consistent built
  constructor
  · have hend : (run ⟨r, clock, outbox⟩ turns).2.registry.Consistent :=
      run_keeps (fun h effect => effect.consistent h) (fun ref time h => h.setExamTime ref time)
        turns [] hr
    exact hend.agreeing
  · exact run_reports (fun h effect => effect.consistent h)
      (fun ref time h => h.setExamTime ref time) (fun call h => serve_not_faulty h call) turns hr

/-- Student 2 moves up as student 1 leaves, student 1 is let in again by force, and the journal
takes the new capacity but not the student. -/
theorem run_agreeing_small :
    let turns : List Turn := [
      .call (.request false (.drop ⟨1⟩ ⟨100⟩)),
      .outbox (.script ⟨[.accept], .refuse .closed⟩),
      .call (.request false (.staffEnroll ⟨1⟩ ⟨⟨100⟩, ⟨1⟩⟩)),
      .call (.query (.courses ⟨2⟩))]
    let (reports, o) := run ⟨.small, .epoch, .script .accepting⟩ turns
    o.registry.Agreeing ∧ ∀ report ∈ reports, ¬ report.Faulty := by
  intro turns
  exact run_agreeing Snapshot.small_build .epoch (.script .accepting) turns

end Office

end CourseRegistration
