import CourseRegistration.Proofs.Atomicity
import CourseRegistration.Proofs.StudentSteps

/-!
# What a call leaves to everyone else

A place is lost only by asking for it.  Five operations work on the seats of a section, and each
does something else to its waitlist: its head moves up, a student leaves from the middle, the first
students are admitted together, a newcomer stands behind, a student comes over from another group.
They have in common that the seats `Advance`: nobody who is registered goes back to the waitlist,
the waiting students keep their order, and at most one newcomer waits behind them.  So nobody who
keeps a place is further back than before (`Advance.position_le`).

`call_spares_others` says of every call, in every registry that an office can have, that a place is
lost or falls back only if its student has given it up, and that other students are not touched at
all.
-/

namespace CourseRegistration

open Journal

namespace Seats

variable {s s' : Seats} {x y : StudentId} {new : StudentId → Prop} {n : Nat}

/-- `s.Advance s'` says that nobody who has a place in both seats stands further back in `s'`. -/
structure Advance (s s' : Seats) : Prop where
  /-- Whoever is registered and keeps a place stays registered. -/
  registered : ∀ {x}, x ∈ s.registered → s'.holds x = true → x ∈ s'.registered
  /-- Some of the waiting students wait as before, and at most one waits behind them, who had no
  place. -/
  waitlist : ∃ kept newcomers, s'.waitlist = kept ++ newcomers ∧ kept.Sublist s.waitlist ∧
    newcomers.length ≤ 1 ∧ ∀ x ∈ newcomers, s.holds x = false

/-! ## Positions -/

/-- Whoever stays in a queue has no more students ahead than before. -/
lemma idxOf_le_of_sublist {α : Type} [DecidableEq α] {l l' : List α} {a : α} (h : l.Sublist l')
    (hnodup : l'.Nodup) (ha : a ∈ l) : l.idxOf a ≤ l'.idxOf a := by
  induction h with
  | slnil => exact Nat.le_refl _
  | @cons l l' b h ih =>
    have hne : b ≠ a := by
      rintro rfl
      exact (List.nodup_cons.1 hnodup).1 (h.subset ha)
    rw [List.idxOf_cons_ne l' hne]
    exact Nat.le_succ_of_le (ih hnodup.of_cons ha)
  | @cons_cons l l' b h ih =>
    by_cases hb : b = a
    · rw [List.idxOf_cons_eq l hb]
      exact Nat.zero_le _
    · rw [List.idxOf_cons_ne l hb, List.idxOf_cons_ne l' hb]
      exact Nat.succ_le_succ (ih hnodup.of_cons (List.mem_of_ne_of_mem (Ne.symm hb) ha))

/-- Whoever keeps a place while the seats advance does not fall back. -/
lemma Advance.position_le (h : s.Advance s') (orderly : s.Orderly)
    (hbefore : s.position? x = some n) (hafter : s'.holds x = true) :
    ∃ m, s'.position? x = some m ∧ m ≤ n := by
  have hholds := position?_isSome_iff.1 (Option.isSome_of_eq_some hbefore)
  by_cases hreg' : x ∈ s'.registered
  · exact ⟨0, position?_of_registered hreg', Nat.zero_le _⟩
  -- whoever waits now has waited before, and those ahead were ahead before
  have hreg : x ∉ s.registered := fun hreg => hreg' (h.registered hreg hafter)
  have hwaits := (holds_iff.1 hholds).resolve_left hreg
  have hwaits' := (holds_iff.1 hafter).resolve_left hreg'
  obtain ⟨kept, newcomers, hsplit, hsub, -, hnew⟩ := h.waitlist
  have hkept : x ∈ kept := by
    rw [hsplit] at hwaits'
    refine (List.mem_append.1 hwaits').resolve_right fun hx => ?_
    rw [hnew x hx] at hholds
    cases hholds
  rw [position?_of_waiting hreg hwaits, Option.some.injEq] at hbefore
  refine ⟨_, position?_of_waiting hreg' hwaits', ?_⟩
  rw [hsplit, List.idxOf_append_of_mem hkept, ← hbefore]
  exact Nat.succ_le_succ (idxOf_le_of_sublist hsub orderly.nodup hkept)

/-! ## Moves -/

lemma Advance.of_sublist (hreg : ∀ {x}, x ∈ s.registered → s'.holds x = true → x ∈ s'.registered)
    (hsub : s'.waitlist.Sublist s.waitlist) : s.Advance s' :=
  ⟨hreg, s'.waitlist, [], (List.append_nil _).symm, hsub, Nat.zero_le _, nofun⟩

lemma Advance.refl (s : Seats) : s.Advance s :=
  .of_sublist (fun h _ => h) (List.Sublist.refl _)

lemma advance_give (hx : s.holds x = false) (place : Place) : s.Advance (s.give x place) := by
  cases place with
  | registered =>
    exact .of_sublist (fun h _ => OrderedSet.mem_insert.2 (.inr h)) (List.Sublist.refl _)
  | waitlisted =>
    refine ⟨fun h _ => h, s.waitlist, [x], rfl, List.Sublist.refl _, Nat.le_refl _, ?_⟩
    intro y hy
    rw [List.mem_singleton.1 hy]
    exact hx

lemma advance_vacate (hs : s.Orderly) (x : StudentId) : s.Advance (s.vacate x) := by
  refine .of_sublist (fun {y} hy hafter => ?_) ?_
  · have hne : y ≠ x := ((holds_vacate hs).1 hafter).1
    rcases vacate_cases s x with ⟨-, -, he⟩ | ⟨next, rest, -, -, he⟩ | ⟨-, he⟩ <;> rw [he]
    · exact OrderedSet.mem_erase.2 ⟨hne, hy⟩
    · exact OrderedSet.mem_insert.2 (.inr (OrderedSet.mem_erase.2 ⟨hne, hy⟩))
    · exact hy
  · rcases vacate_cases s x with ⟨-, -, he⟩ | ⟨next, rest, -, hw, he⟩ | ⟨-, he⟩
    · rw [he]
    · rw [he, hw]
      exact List.sublist_cons_self next rest
    · rw [he]
      exact List.erase_sublist

/-- **With every move the seats advance**, if whoever is given a place has none yet. -/
theorem Move.advance (h : Move (s.holds · = false) s s') (hs : s.Orderly) : s.Advance s' := by
  cases h with
  | give hx vacant => exact advance_give hx _
  | vacate x => exact advance_vacate hs x
  | raiseAndGive hx full fits =>
    exact .of_sublist (fun h _ => OrderedSet.mem_insert.2 (.inr h)) (List.Sublist.refl _)
  | resize enough =>
    exact .of_sublist (fun h _ => OrderedSet.mem_insertAll.2 (.inr h)) (List.drop_sublist _ _)

end Seats

/-! ## Sections and students -/

/-- With every step of a section its seats advance. -/
lemma Section.Step.advance {s : Section} {request : Request} {records : List Record}
    {seats : Seats} (h : s.Step request records seats) (orderly : s.seats.Orderly) :
    s.seats.Advance seats := by
  cases h with
  | stay => exact .refl s.seats
  | move move => exact move.advance orderly
  | raise full fits => exact .of_sublist (fun h _ => h) (List.Sublist.refl _)

namespace Request

/-- The student who is named in the request. -/
def student? : Request → Option StudentId
  | enroll id _ | drop id _ | switchGroup id _ | staffEnroll id _ | staffDrop id _ => some id
  | resize .. => none

/-- The student's place in the course is what the request gives up. -/
def GivesUp (id : StudentId) (course : CourseId) : Request → Prop
  | drop id' course' | staffDrop id' course' => id' = id ∧ course' = course
  | switchGroup id' key => id' = id ∧ key.course = course
  | enroll .. | staffEnroll .. | resize .. => False

end Request

lemma Student.courses_spendAction (s : Student) : s.spendAction.courses = s.courses :=
  rfl

/-- A student holds every group as before that is not what the request gives up. -/
lemma Student.Step.keeps_group {r : Registry} {s s' : Student} {request : Request}
    {course : CourseId} {group : GroupId} (h : s.Step r request s')
    (hkept : ¬ request.GivesUp s.id course) (holds : s.courses.get? course = some group) :
    s'.courses.get? course = some group := by
  -- a new course is one that the student did not hold
  have hold_fresh : ∀ {key units}, s.courses.get? key.course = none →
      (s.hold key units).courses.get? course = some group := by
    intro key units fresh
    rw [get?_hold, if_neg, holds]
    rintro rfl
    rw [fresh] at holds
    cases holds
  cases h with
  | stay => exact holds
  | enroll _ _ _ _ fresh => exact hold_fresh fresh
  | staffEnroll _ fresh => exact hold_fresh fresh
  | drop => rw [courses_spendAction, get?_letGo, if_neg fun h => hkept ⟨rfl, h.symm⟩, holds]
  | staffDrop => rw [get?_letGo, if_neg fun h => hkept ⟨rfl, h.symm⟩, holds]
  | switchGroup => rw [courses_spendAction, get?_hold, if_neg fun h => hkept ⟨rfl, h.symm⟩, holds]

namespace Registry

variable {r r' : Registry} {now : Instant} {request : Request} {records : List Record}
  {id : StudentId} {key : SectionKey} {ref : Catalog.Ref} {s : Section} {n : Nat}

/-- Students who are not named in a request are as before. -/
lemma Effect.get?_students_of_ne (h : r.Effect now request records r') (hr : r.Sound)
    (hother : request.student? ≠ some id) : r'.students.get? id = r.students.get? id := by
  rcases h.studentStepAt hr id with ⟨hnone, hnone'⟩ | ⟨s, s', known, known', step⟩
  · rw [hnone, hnone']
  · obtain rfl := hr.filed known
    cases step with
    | stay => rw [known, known']
    | _ => exact absurd rfl hother

/-- Every section is where it was, and its seats have advanced. -/
lemma Effect.advance (h : r.Effect now request records r') (hr : r.Consistent)
    (found : r.catalog.lookup key = some (ref, s)) :
    ∃ s', r'.catalog.lookup key = some (ref, s') ∧ s.seats.Advance s'.seats := by
  rcases h.stepAt hr key with ⟨hnone, -⟩ | ⟨ref₀, s₀, seats, found₀, found', step⟩
  · rw [found] at hnone
    cases hnone
  · rw [found] at found₀
    cases found₀
    exact ⟨_, found', step.advance (hr.agrees.orderly (seats_ledger found))⟩

/-- Whoever has a place that the request does not give up has it afterwards. -/
lemma Effect.keeps_place (h : r.Effect now request records r') (hr : r.Consistent)
    (hkept : ¬ request.GivesUp id key.course) (hplace : r.ledger.HasPlace id key) :
    r'.ledger.HasPlace id key := by
  have holds := (hr.agrees.hasPlace_iff id key).1 hplace
  rw [(h.consistent hr).agrees.hasPlace_iff]
  rcases h.studentStepAt hr.sound id with ⟨hnone, -⟩ | ⟨s, s', known, known', step⟩
  · simp [ledger, hnone] at holds
  · obtain rfl := hr.sound.filed known
    rw [held_ledger known] at holds
    rw [held_ledger known']
    exact step.keeps_group hkept holds

/-- **Whoever has a place that a request does not give up is no further back in it afterwards.** -/
theorem Effect.position_le (h : r.Effect now request records r') (hr : r.Consistent)
    (hkept : ¬ request.GivesUp id key.course) (found : r.catalog.lookup key = some (ref, s))
    (hposition : s.seats.position? id = some n) :
    ∃ s' m, r'.catalog.lookup key = some (ref, s') ∧ s'.seats.position? id = some m ∧ m ≤ n := by
  have hholds := Seats.position?_isSome_iff.1 (Option.isSome_of_eq_some hposition)
  have hplace := (Ledger.hasPlace_of_seats (seats_ledger found)).2 hholds
  obtain ⟨s', found', advance⟩ := h.advance hr found
  have hholds' := (Ledger.hasPlace_of_seats (seats_ledger found')).1 (h.keeps_place hr hkept hplace)
  obtain ⟨m, hm, hle⟩ :=
    advance.position_le (hr.agrees.orderly (seats_ledger found)) hposition hholds'
  exact ⟨s', m, found', hm, hle⟩

end Registry

/-! ## Calls -/

namespace Call

/-- The student who is named in the request, if the call is one. -/
def student? : Call → Option StudentId
  | .request _ asked => asked.student?
  | .query _ => none

/-- The student's place in the course is what the call gives up. -/
def GivesUp (id : StudentId) (course : CourseId) : Call → Prop
  | .request _ asked => asked.GivesUp id course
  | .query _ => False

end Call

namespace Office

/-- Whoever has a place is no further back after a request that is not the student's own, successful
one to give it up. -/
lemma handle_position_le {o : Office} {id : StudentId} {key : SectionKey} {ref : Catalog.Ref}
    {s : Section} {n : Nat} (hr : o.registry.Consistent) (cancelled : Bool) (request : Request)
    (found : o.registry.catalog.lookup key = some (ref, s))
    (hposition : s.seats.position? id = some n) :
    (∃ s' m, (o.handle cancelled request).2.registry.catalog.lookup key = some (ref, s') ∧
      s'.seats.position? id = some m ∧ m ≤ n) ∨
    ((∃ answer, (o.handle cancelled request).1.outcome = .done answer) ∧
      request.GivesUp id key.course) := by
  by_cases hgives : request.GivesUp id key.course
  · by_cases hdone : ∃ answer, (o.handle cancelled request).1.outcome = .done answer
    · exact .inr ⟨hdone, hgives⟩
    · -- a request that fails has changed something only if staff enroll a student
      rcases o.handle_unfinished cancelled request fun answer h => hdone ⟨answer, h⟩ with
        ⟨hsame, -⟩ | ⟨_, _, _, _, rfl, -⟩
      · rw [hsame]
        exact .inl ⟨s, n, found, hposition, Nat.le_refl n⟩
      · exact hgives.elim
  · exact .inl ((o.handle_effect cancelled request).position_le hr hgives found hposition)

/-- **A call takes no place from anyone who does not give it up, and nobody falls back.**  In a
registry that comes from a snapshot by any run, whatever the outbox does: whoever has a place before
a call has it afterwards, no further back, unless the call has succeeded and the place was what it
gives up; every waitlist keeps its order and gets at most one newcomer, at its end; and students who
are not named in the call are as before. -/
theorem call_spares_others {snapshot : Snapshot} {r : Registry} (built : snapshot.build = .ok r)
    (clock : Instant) (outbox : Outbox) (turns : List Turn) (call : Call) :
    let o := (run ⟨r, clock, outbox⟩ turns).2
    let report := (o.serve call).1
    let o' := (o.serve call).2
    (∀ id key ref s n, o.registry.catalog.lookup key = some (ref, s) →
      s.seats.position? id = some n →
      (∃ s' m, o'.registry.catalog.lookup key = some (ref, s') ∧
        s'.seats.position? id = some m ∧ m ≤ n) ∨
      ((∃ answer, report.outcome = .done answer) ∧ call.GivesUp id key.course)) ∧
    (∀ key ref s, o.registry.catalog.lookup key = some (ref, s) →
      ∃ s', o'.registry.catalog.lookup key = some (ref, s') ∧ s.seats.Advance s'.seats) ∧
    ∀ id, call.student? ≠ some id → o'.registry.students.get? id = o.registry.students.get? id := by
  intro o report o'
  have hr : o.registry.Consistent := Registry.Consistent.run (Snapshot.build_consistent built) turns
  cases call with
  | query q =>
    refine ⟨fun id key ref s n found hposition => ?_, fun key ref s found => ?_, fun id _ => rfl⟩
    · exact .inl ⟨s, n, found, hposition, Nat.le_refl n⟩
    · exact ⟨s, found, .refl s.seats⟩
  | request cancelled request =>
    have effect := o.handle_effect cancelled request
    refine ⟨fun id key ref s n found hposition => ?_,
      fun key ref s found => effect.advance hr found,
      fun id hother => effect.get?_students_of_ne hr.sound hother⟩
    rcases handle_position_le hr cancelled request found hposition with
      hkept | ⟨⟨answer, hanswer⟩, hgives⟩
    · exact .inl hkept
    · exact .inr ⟨⟨.met answer, congrArg (Outcome.map Response.met) hanswer⟩, hgives⟩

/-- Student 1 leaves group 1, where student 2 waits first, and student 2 has not fallen back. -/
theorem call_spares_others_small :
    (∃ ref s, Registry.small.catalog.lookup ⟨⟨100⟩, ⟨1⟩⟩ = some (ref, s) ∧
      s.seats.position? ⟨2⟩ = some 1) ∧
    ∃ ref s n, ((⟨.small, .epoch, .script .accepting⟩ : Office).serve
        (.request false (.drop ⟨1⟩ ⟨100⟩))).2.registry.catalog.lookup ⟨⟨100⟩, ⟨1⟩⟩ = some (ref, s) ∧
      s.seats.position? ⟨2⟩ = some n ∧ n ≤ 1 := by
  have hwaits : ∃ ref s, Registry.small.catalog.lookup ⟨⟨100⟩, ⟨1⟩⟩ = some (ref, s) ∧
      s.seats.position? ⟨2⟩ = some 1 := ⟨_, _, rfl, rfl⟩
  refine ⟨hwaits, ?_⟩
  obtain ⟨ref, s, found, hposition⟩ := hwaits
  obtain ⟨hplaces, -⟩ := call_spares_others Snapshot.small_build .epoch (.script .accepting)
    [] (.request false (.drop ⟨1⟩ ⟨100⟩))
  rcases hplaces ⟨2⟩ ⟨⟨100⟩, ⟨1⟩⟩ ref s 1 found hposition with ⟨s', n, hkept⟩ | ⟨-, hother, -⟩
  · exact ⟨ref, s', n, hkept⟩
  · exact absurd hother (by decide)

end Office

end CourseRegistration
