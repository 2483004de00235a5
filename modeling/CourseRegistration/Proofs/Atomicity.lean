import CourseRegistration.Proofs.Catalog
import CourseRegistration.Proofs.Run
import CourseRegistration.Proofs.Snapshot

/-!
# Calls that do not succeed

A call that does not succeed leaves the registry as it was: nothing is changed before every rule has
been checked, and then only what the journal has taken.  There is one exception.  Staff who enroll
a student in a full section make two changes, the new seat and the student in it, and the journal
may take the record of the first and not that of the second.  The section then keeps its new seat.

`failed_call_atomic` says this of every state of an office, consistent or not, and of every way in
which the outbox answers.  `Planned.unfinished` is the reason: a plan that is broken off is broken
off before its first change, or it is the plan for a full section.
-/

namespace CourseRegistration

open Journal

namespace Registry

/-- `r'` is `r` with one more registered seat in the full section `s` at `ref`. -/
structure OneSeatMore (r : Registry) (ref : Catalog.Ref) (s : Section) (r' : Registry) : Prop where
  /-- There was no free registered seat. -/
  full : s.seats.capacity.toNat ≤ s.seats.registered.size
  /-- The sections are those of before, but for the capacity of the one. -/
  sections : ∀ ref', r'.catalog.get? ref' =
    if ref' = ref then some { s with seats := { s.seats with capacity := s.seats.capacity + 1 } }
    else r.catalog.get? ref'
  /-- The capacity is exactly one higher. -/
  capacity : (s.seats.capacity + 1).toNat = s.seats.capacity.toNat + 1
  students : r'.students = r.students
  departments : r'.departments = r.departments

variable {r r' : Registry} {now : Instant} {request : Request} {id : StudentId} {key : SectionKey}
  {ref : Catalog.Ref} {s : Section}

lemma oneSeatMore_putSection (found : r.catalog.lookup key = some (ref, s))
    (full : s.seats.isFull = true) (fits : s.seats.capacity.toNat + 1 < UInt64.size) :
    r.OneSeatMore ref s (r.putSection ref s.grown) := by
  refine ⟨by simpa [Seats.isFull] using full, ?_, ?_, rfl, rfl⟩
  · exact Catalog.get?_set (Catalog.get?_of_lookup found) s.grown
  · have hone : (1 : UInt64).toNat = 1 := rfl
    rw [UInt64.toNat_add, hone, Nat.mod_eq_of_lt fits]

/-- Two records are those of a full section and of the student for whom it grew. -/
lemma Effect.of_two {x y : Record} (h : r.Effect now request [x, y] r') :
    ∃ id key ref s, request = .staffEnroll id key ∧ r.catalog.lookup key = some (ref, s) ∧
      s.seats.isFull = true ∧ s.seats.capacity.toNat + 1 < UInt64.size ∧
      x = s.record (.resize s.key (s.seats.capacity + 1) []) ∧
      y = s.record (.enroll id s.key false) := by
  cases h with
  | raiseAndEnroll known found fresh full fits =>
    exact ⟨_, _, _, _, rfl, found, full, fits, rfl, rfl⟩

/-- If the journal has nothing but the new capacity, the section has grown and nothing else is
different. -/
lemma Effect.of_raise (found : r.catalog.lookup key = some (ref, s))
    (h : r.Effect now (.staffEnroll id key)
      [s.record (.resize s.key (s.seats.capacity + 1) [])] r') :
    r' = r.putSection ref s.grown := by
  generalize hrecord : s.record (.resize s.key (s.seats.capacity + 1) []) = x at h
  cases h with
  | staffEnroll known found' =>
    rw [Section.record, Section.record, Record.mk.injEq] at hrecord
    cases hrecord.2
  | raise known found' =>
    rw [found, Option.some.injEq, Prod.mk.injEq] at found'
    rw [found'.1, found'.2]

/-- **A plan is broken off before its first change, or it is the plan for a full section**, broken
off after the section has grown. -/
theorem Planned.unfinished {made left : List (Change Registry)}
    (h : r.Planned now request (made ++ left)) (hleft : left ≠ []) :
    made = [] ∨ ∃ id key ref s, request = .staffEnroll id key ∧
      r.catalog.lookup key = some (ref, s) ∧
      made.map (·.record) = [s.record (.resize s.key (s.seats.capacity + 1) [])] ∧
      (left.take 1).map (·.record) = [s.record (.enroll id s.key false)] ∧
      r.OneSeatMore ref s (Change.after made r) := by
  generalize hchanges : made ++ left = changes at h
  rcases made with _ | ⟨c, rest⟩
  · exact .inl rfl
  right
  cases h with
  | none => cases hchanges
  | one all =>
    obtain ⟨-, hrest⟩ := List.cons_eq_cons.1 hchanges
    exact absurd (List.append_eq_nil_iff.1 hrest).2 hleft
  | @two c' d first all =>
    obtain ⟨rfl, hrest⟩ := List.cons_eq_cons.1 hchanges
    -- only the second change can be left
    have hsplit : rest = [] ∧ left = [d] := by
      rcases List.append_eq_singleton_iff.1 hrest with h | ⟨-, h⟩
      · exact h
      · exact absurd h hleft
    obtain ⟨rfl, rfl⟩ := hsplit
    obtain ⟨id, key, ref, s, rfl, found, full, fits, hfirst, hsecond⟩ := all.of_two
    rw [hfirst] at first
    have hresult : c.result = r.putSection ref s.grown := first.of_raise found
    refine ⟨id, key, ref, s, rfl, found, ?_, ?_, ?_⟩
    · rw [List.map_singleton, hfirst]
    · rw [List.take_succ_cons, List.take_zero, List.map_singleton, hsecond]
    · show r.OneSeatMore ref s c.result
      rw [hresult]
      exact oneSeatMore_putSection found full fits

end Registry

/-! ## Calls -/

/-- Whether the call was cancelled already. -/
def Call.isCancelled : Call → Bool
  | .request cancelled _ => cancelled
  | .query _ => false

namespace Office

/-- What the journal was offered in a call: all that was taken, then at most one more record. -/
lemma serve_offers (o : Office) (call : Call) :
    let (report, o') := o.serve call
    report.declined.length ≤ 1 ∧
    ∃ replies : List Reply, (∀ reply ∈ replies, reply ≠ .taken) ∧
      o.outbox.offerAll call.isCancelled (report.taken ++ report.declined) =
        (List.replicate report.taken.length .taken ++ replies, o'.outbox) := by
  cases call with
  | query q =>
    obtain ⟨htaken, hdeclined⟩ := o.ask_records q
    show (o.ask q).declined.length ≤ 1 ∧ ∃ replies : List Reply, _ ∧
      o.outbox.offerAll false ((o.ask q).taken ++ (o.ask q).declined) =
        (List.replicate (o.ask q).taken.length .taken ++ replies, o.outbox)
    rw [htaken, hdeclined]
    exact ⟨Nat.zero_le _, [], nofun, rfl⟩
  | request cancelled request =>
    show (o.handle cancelled request).1.declined.length ≤ 1 ∧ ∃ replies : List Reply, _ ∧
      o.outbox.offerAll cancelled
          ((o.handle cancelled request).1.taken ++ (o.handle cancelled request).1.declined) =
        (List.replicate (o.handle cancelled request).1.taken.length .taken ++ replies,
          (o.handle cancelled request).2.outbox)
    cases hdecide : o.decide request with
    | error halt =>
      obtain ⟨hoffice, htaken, hdeclined⟩ := handle_of_error cancelled hdecide
      rw [hoffice, htaken, hdeclined]
      exact ⟨Nat.zero_le _, [], nofun, rfl⟩
    | ok plan =>
      obtain ⟨hoffice, htaken, hdeclined, -⟩ := handle_of_ok cancelled hdecide
      obtain ⟨made, left, -, -, hmade, hleft, -, hoffers⟩ :=
        carryOut_spec cancelled plan.changes o.registry o.outbox
      rw [hoffice, htaken, hdeclined, hmade, hleft, ← List.map_append, hoffers]
      refine ⟨?_, _, fun reply hreply => ?_, by rw [List.length_map]⟩
      · rw [List.length_map, List.length_take]
        exact Nat.min_le_left _ _
      · obtain ⟨stop, -, rfl⟩ := Option.map_eq_some_iff.1 (Option.mem_toList.1 hreply)
        cases stop <;> exact nofun

/-- A request that is not met leaves everything as it was, or a full section with one more seat. -/
lemma handle_unfinished (o : Office) (cancelled : Bool) (request : Request)
    (failed : ∀ answer, (o.handle cancelled request).1.outcome ≠ .done answer) :
    (o.handle cancelled request).2.registry = o.registry ∧
      (o.handle cancelled request).1.taken = [] ∨
    ∃ id key ref s, request = .staffEnroll id key ∧
      o.registry.catalog.lookup key = some (ref, s) ∧
      (o.handle cancelled request).1.taken =
        [s.record (.resize s.key (s.seats.capacity + 1) [])] ∧
      (o.handle cancelled request).1.declined = [s.record (.enroll id s.key false)] ∧
      o.registry.OneSeatMore ref s (o.handle cancelled request).2.registry := by
  cases hdecide : o.decide request with
  | error halt =>
    obtain ⟨hoffice, htaken, -⟩ := handle_of_error cancelled hdecide
    rw [hoffice]
    exact .inl ⟨rfl, htaken⟩
  | ok plan =>
    obtain ⟨hoffice, htaken, hdeclined, houtcome⟩ := handle_of_ok cancelled hdecide
    obtain ⟨made, left, hsplit, hstate, hmade, hleft, hstop, -⟩ :=
      carryOut_spec cancelled plan.changes o.registry o.outbox
    have hbroken : left ≠ [] := by
      intro hnil
      refine failed plan.answer ?_
      rw [houtcome, hstop.2 hnil]
      rfl
    have hplan := decide_planned hdecide
    rw [hsplit] at hplan
    rw [hoffice, htaken, hdeclined, hmade, hleft]
    rcases hplan.unfinished hbroken with
      rfl | ⟨id, key, ref, s, hrequest, found, hfirst, hsecond, hgrown⟩
    · exact .inl ⟨hstate, rfl⟩
    · rw [← hstate] at hgrown
      exact .inr ⟨id, key, ref, s, hrequest, found, hfirst, hsecond, hgrown⟩

/-- **A call that does not succeed changes nothing**, except that a full section may have grown for
a student who was then not recorded.  Nothing reaches the journal but the new capacity of that
section.  At most one record is offered in vain, and it is offered last. -/
theorem failed_call_atomic (o : Office) (call : Call)
    (failed : ∀ answer, (o.serve call).1.outcome ≠ .done answer) :
    let (report, o') := o.serve call
    (o'.registry = o.registry ∧ report.taken = [] ∨
      ∃ cancelled id key ref s, call = .request cancelled (.staffEnroll id key) ∧
        o.registry.catalog.lookup key = some (ref, s) ∧
        report.taken = [s.record (.resize s.key (s.seats.capacity + 1) [])] ∧
        report.declined = [s.record (.enroll id s.key false)] ∧
        o.registry.OneSeatMore ref s o'.registry) ∧
    report.declined.length ≤ 1 ∧
    ∃ replies : List Reply, (∀ reply ∈ replies, reply ≠ .taken) ∧
      o.outbox.offerAll call.isCancelled (report.taken ++ report.declined) =
        (List.replicate report.taken.length .taken ++ replies, o'.outbox) := by
  refine ⟨?_, o.serve_offers call⟩
  cases call with
  | query q => exact .inl ⟨rfl, (o.ask_records q).1⟩
  | request cancelled request =>
    have hnot_done : ∀ answer, (o.handle cancelled request).1.outcome ≠ .done answer := by
      intro answer hdone
      exact failed (.met answer) (congrArg (Outcome.map Response.met) hdone)
    rcases o.handle_unfinished cancelled request hnot_done with
      hkept | ⟨id, key, ref, s, rfl, hgrown⟩
    · exact .inl hkept
    · exact .inr ⟨cancelled, id, key, ref, s, rfl, hgrown⟩

/-- The exception does occur: the journal takes a third seat for student 3 and then closes. -/
theorem failed_call_atomic_small :
    let o : Office := ⟨.small, .epoch, .script ⟨[.accept], .refuse .closed⟩⟩
    let call : Call := .request false (.staffEnroll ⟨3⟩ ⟨⟨100⟩, ⟨1⟩⟩)
    (∀ answer, (o.serve call).1.outcome ≠ .done answer) ∧
      ∃ ref s, o.registry.catalog.lookup ⟨⟨100⟩, ⟨1⟩⟩ = some (ref, s) ∧
        (o.serve call).1.taken = [s.record (.resize s.key (s.seats.capacity + 1) [])] ∧
        o.registry.OneSeatMore ref s (o.serve call).2.registry := by
  intro o call
  have hfailed : ∀ answer, (o.serve call).1.outcome ≠ .done answer := nofun
  refine ⟨hfailed, ?_⟩
  rcases (failed_call_atomic o call hfailed).1 with
    ⟨-, hnone⟩ | ⟨cancelled, id, key, ref, s, hcall, found, htaken, -, hgrown⟩
  · exact absurd hnone (by decide)
  · change Call.request false (.staffEnroll ⟨3⟩ ⟨⟨100⟩, ⟨1⟩⟩) = _ at hcall
    cases hcall
    exact ⟨ref, s, found, htaken, hgrown⟩

end Office

end CourseRegistration
