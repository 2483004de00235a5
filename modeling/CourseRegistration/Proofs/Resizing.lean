import CourseRegistration.Proofs.Enrollment

/-!
# Growing in steps

A section that grows in two steps ends like one that grows at once.  The first step moves up as many
waiting students as it has new seats, the second counts its new seats from the capacity that the
first one left, and the waitlist has meanwhile become shorter by those who moved up
(`Seats.promotable_resize`).  So together they move up the same students in the same order
(`Seats.promoted_append`), and the seats end up the same (`Seats.resize_resize`).

A capacity that is no larger than before moves nobody up; it is an ordinary case of the same
operation (`Seats.resize_of_le`), whether it is smaller or the same.
-/

namespace CourseRegistration

open Journal Check

/-! ## Seats -/

namespace Seats

variable {s : Seats} {m n : UInt64}

lemma promotable_of_le (h : n ≤ s.capacity) : s.promotable n = 0 := by
  rw [promotable, Nat.sub_eq_zero_of_le (UInt64.le_iff_toNat_le.1 h), Nat.zero_min]

/-- Without new seats nobody moves up. -/
lemma promoted_of_le (h : n ≤ s.capacity) : s.promoted n = [] := by
  rw [promoted, promotable_of_le h, List.take_zero]

/-- Without new seats only the capacity changes. -/
lemma resize_of_le (h : n ≤ s.capacity) : s.resize n = { s with capacity := n } := by
  rw [resize, promoted_of_le h, promotable_of_le h, List.drop_zero]
  rfl

lemma promotable_mono (h : n ≤ m) : s.promotable n ≤ s.promotable m := by
  have := UInt64.le_iff_toNat_le.1 h
  unfold promotable
  omega

/-- A second step moves up those whom the first one has left for it. -/
lemma promotable_resize (h₁ : s.capacity ≤ n) (h₂ : n ≤ m) :
    (s.resize n).promotable m = s.promotable m - s.promotable n := by
  have := UInt64.le_iff_toNat_le.1 h₁
  have := UInt64.le_iff_toNat_le.1 h₂
  simp only [promotable, resize, List.length_drop]
  omega

/-- Two steps move up the same students as one, in the same order. -/
lemma promoted_append (h₁ : s.capacity ≤ n) (h₂ : n ≤ m) :
    s.promoted n ++ (s.resize n).promoted m = s.promoted m := by
  have hsum := Nat.add_sub_of_le (promotable_mono (s := s) h₂)
  rw [promoted, promoted, promotable_resize h₁ h₂]
  show _ ++ (s.waitlist.drop (s.promotable n)).take _ = _
  rw [← List.take_add, hsum, promoted]

/-- **Two steps leave the same seats as one.** -/
theorem resize_resize (h₁ : s.capacity ≤ n) (h₂ : n ≤ m) :
    (s.resize n).resize m = s.resize m := by
  have hregistered : (s.registered.insertAll (s.promoted n)).insertAll ((s.resize n).promoted m) =
      s.registered.insertAll (s.promoted m) := by
    rw [← promoted_append h₁ h₂, OrderedSet.insertAll, OrderedSet.insertAll, OrderedSet.insertAll,
      List.foldl_append]
  have hwaitlist : (s.waitlist.drop (s.promotable n)).drop ((s.resize n).promotable m) =
      s.waitlist.drop (s.promotable m) := by
    rw [promotable_resize h₁ h₂, List.drop_drop, Nat.add_sub_of_le (promotable_mono h₂)]
  rw [resize, resize, Seats.mk.injEq]
  exact ⟨rfl, rfl, hregistered, hwaitlist⟩

end Seats

/-! ## Sections -/

namespace Section

variable {s : Section} {n : UInt64}

/-- A capacity with room for everyone registered comes down to one change, or to none if it is the
capacity already. -/
lemma resize_eq (enough : s.seats.registered.size ≤ n.toNat) :
    ∃ changes, s.resize n = .ok ⟨changes, s.seats.promoted n⟩ ∧
      (changes = [] ∧ s.withSeats (s.seats.resize n) = s ∨
        ∃ record event, changes = [⟨record, s.withSeats (s.seats.resize n), event⟩]) := by
  simp only [resize, decide_eq_true enough, require_true, ok_bind]
  split_ifs with hsame
  · subst hsame
    rw [Seats.promoted_of_le (UInt64.le_refl _), Seats.resize_of_le (UInt64.le_refl _)]
    exact ⟨[], rfl, .inl ⟨rfl, rfl⟩⟩
  · exact ⟨_, rfl, .inr ⟨_, _, rfl⟩⟩

/-- A section with room for everyone registered gets the new capacity, if the journal takes the
record. -/
lemma execute_resize {cancelled : Bool} {outbox : Outbox}
    (enough : s.seats.registered.size ≤ n.toNat)
    (accepts : ∀ record, (outbox.offer cancelled record).1 = .taken) :
    (execute cancelled (s.resize n) s outbox).1.outcome = .done (s.seats.promoted n) ∧
      (execute cancelled (s.resize n) s outbox).2.1 = s.withSeats (s.seats.resize n) := by
  obtain ⟨changes, hresize, ⟨rfl, hsame⟩ | ⟨record, event, rfl⟩⟩ := resize_eq enough
  · rw [hresize, hsame]
    exact ⟨rfl, rfl⟩
  · simp only [hresize, execute, carryOut_singleton s (accepts _), Report.outcomeOf, and_self]

/-- **A section that grows in two steps ends like one that grows at once.**  Both steps go through,
the students whom they move up are together those whom the one step moves up, in the order of the
waitlist and as many as there are new seats for, and the section is the same in the end.  A section
that shrinks to a capacity with room for everyone registered moves nobody up, and nothing else of it
changes. -/
theorem resize_in_steps (s : Section) (cancelled : Bool) (outbox : Outbox)
    (fits : s.seats.registered.size ≤ s.seats.capacity.toNat)
    (accepts : ∀ record, (outbox.offer cancelled record).1 = .taken) :
    (∀ (n₁ n₂ : UInt64) (cancelled₁ cancelled₂ : Bool) (outbox₁ : Outbox),
      s.seats.capacity ≤ n₁ → n₁ ≤ n₂ →
      let first := execute cancelled₁ (s.resize n₁) s outbox₁
      let second := execute cancelled₂ (first.2.1.resize n₂) first.2.1 first.2.2
      let once := execute cancelled (s.resize n₂) s outbox
      (∀ record, (outbox₁.offer cancelled₁ record).1 = .taken) →
      (∀ record, (first.2.2.offer cancelled₂ record).1 = .taken) →
      ∃ promoted₁ promoted₂, first.1.outcome = .done promoted₁ ∧
        second.1.outcome = .done promoted₂ ∧ once.1.outcome = .done (promoted₁ ++ promoted₂) ∧
        promoted₁ ++ promoted₂ = s.seats.waitlist.take
          (min (n₂.toNat - s.seats.capacity.toNat) s.seats.waitlist.length) ∧
        second.2.1 = once.2.1) ∧
    ∀ n : UInt64, s.seats.registered.size ≤ n.toNat → n < s.seats.capacity →
      let less := execute cancelled (s.resize n) s outbox
      less.1.outcome = .done [] ∧ less.2.1 = s.withSeats { s.seats with capacity := n } := by
  constructor
  · intro n₁ n₂ cancelled₁ cancelled₂ outbox₁ h₁ h₂ first second once accepts₁ accepts₂
    have enough₁ := Nat.le_trans fits (UInt64.le_iff_toNat_le.1 h₁)
    have enough₂ := Nat.le_trans enough₁ (UInt64.le_iff_toNat_le.1 h₂)
    obtain ⟨hfirst, hgrown⟩ := execute_resize enough₁ accepts₁
    obtain ⟨honce, hdone⟩ := execute_resize enough₂ accepts
    change first.2.1 = _ at hgrown
    have enough : first.2.1.seats.registered.size ≤ n₂.toNat := by
      rw [hgrown]
      exact Nat.le_trans (Seats.size_resize_le fits enough₁) (UInt64.le_iff_toNat_le.1 h₂)
    obtain ⟨hsecond, hend⟩ := execute_resize enough accepts₂
    have hpromoted : first.2.1.seats.promoted n₂ = (s.seats.resize n₁).promoted n₂ := by
      rw [hgrown]
      rfl
    have hseats : first.2.1.withSeats (first.2.1.seats.resize n₂) =
        s.withSeats (s.seats.resize n₂) := by
      rw [hgrown, ← Seats.resize_resize h₁ h₂]
      rfl
    have happend := Seats.promoted_append h₁ h₂
    exact ⟨s.seats.promoted n₁, (s.seats.resize n₁).promoted n₂, hfirst,
      hsecond.trans (congrArg Outcome.done hpromoted),
      honce.trans (congrArg Outcome.done happend.symm), happend,
      hend.trans (hseats.trans hdone.symm)⟩
  · intro n enough hless
    have hle := UInt64.le_of_lt hless
    obtain ⟨hnobody, hseats⟩ := execute_resize enough accepts
    rw [Seats.promoted_of_le hle] at hnobody
    rw [Seats.resize_of_le hle] at hseats
    exact ⟨hnobody, hseats⟩

/-- A section with a free seat and three students waiting: two more seats in two steps, and one seat
less. -/
theorem resize_in_steps_small :
    let s : Section := ⟨⟨⟨100⟩, ⟨1⟩⟩, ⟨7⟩, "staff", 3, 0, .unscheduled, .unlocked,
      ⟨2, 3, OrderedSet.empty.insert ⟨9⟩, [⟨4⟩, ⟨2⟩, ⟨6⟩]⟩⟩
    let outbox : Outbox := .script .accepting
    let first := execute false (s.resize 3) s outbox
    let second := execute false (first.2.1.resize 4) first.2.1 first.2.2
    let once := execute false (s.resize 4) s outbox
    s.seats.registered.size ≤ s.seats.capacity.toNat ∧
    first.1.outcome = .done [⟨4⟩] ∧ second.1.outcome = .done [⟨2⟩] ∧
    once.1.outcome = .done [⟨4⟩, ⟨2⟩] ∧ second.2.1 = once.2.1 ∧
    (execute false (s.resize 1) s outbox).2.1 = s.withSeats { s.seats with capacity := 1 } := by
  intro s outbox first second once
  obtain ⟨grow, shrink⟩ := resize_in_steps s false outbox (by decide) fun _ => rfl
  obtain ⟨_, _, -, -, -, -, hend⟩ :=
    grow 3 4 false false outbox (by decide) (by decide) (fun _ => rfl) fun _ => rfl
  exact ⟨by decide, rfl, rfl, rfl, hend, (shrink 1 (by decide) (by decide)).2⟩

end Section

namespace Office

variable {o : Office} {key : SectionKey} {ref : Catalog.Ref} {s : Section} {n : UInt64}
  {cancelled : Bool}

/-- What a request for another capacity comes to, if the journal takes the record. -/
lemma handle_resize (found : o.registry.catalog.lookup key = some (ref, s))
    (enough : s.seats.registered.size ≤ n.toNat)
    (accepts : ∀ record, (o.outbox.offer cancelled record).1 = .taken) :
    (o.handle cancelled (.resize key n)).1.outcome = .done (.promoted (s.seats.promoted n)) ∧
      (o.handle cancelled (.resize key n)).2.registry =
        o.registry.putSection ref (s.withSeats (s.seats.resize n)) := by
  obtain ⟨changes, hresize, hchanges⟩ := Section.resize_eq enough
  have hdecide : o.decide (.resize key n) =
      .ok ⟨changes.map (·.map (o.registry.putSection ref)), .promoted (s.seats.promoted n)⟩ := by
    simp only [Office.decide, Registry.resize, Registry.offered_eq_ok.2 found, hresize, ok_bind]
    rfl
  obtain ⟨rfl, hsame⟩ | ⟨record, event, rfl⟩ := hchanges
  · -- the capacity is the old one, and nothing is recorded
    obtain ⟨hoffice, -, -, houtcome⟩ := handle_of_ok cancelled hdecide
    rw [houtcome, hoffice, hsame, Registry.putSection,
      Catalog.set_of_get? (Catalog.get?_of_lookup found)]
    exact ⟨rfl, rfl⟩
  · exact handle_of_accepted cancelled accepts hdecide

/-- Two requests for more seats leave the registry that one request leaves, and together they move
up the same students. -/
theorem handle_resize_in_steps (found : o.registry.catalog.lookup key = some (ref, s))
    (fits : s.seats.registered.size ≤ s.seats.capacity.toNat) {n₁ n₂ : UInt64}
    (h₁ : s.seats.capacity ≤ n₁) (h₂ : n₁ ≤ n₂) {cancelled₁ cancelled₂ : Bool} (outbox : Outbox)
    (accepts₁ : ∀ record, (o.outbox.offer cancelled₁ record).1 = .taken)
    (accepts₂ : ∀ record, ((o.handle cancelled₁ (.resize key n₁)).2.outbox.offer cancelled₂
      record).1 = .taken)
    (accepts : ∀ record, (outbox.offer cancelled record).1 = .taken) :
    let first := o.handle cancelled₁ (.resize key n₁)
    let second := first.2.handle cancelled₂ (.resize key n₂)
    let once := Office.handle { o with outbox := outbox } cancelled (.resize key n₂)
    ∃ promoted₁ promoted₂, first.1.outcome = .done (.promoted promoted₁) ∧
      second.1.outcome = .done (.promoted promoted₂) ∧
      once.1.outcome = .done (.promoted (promoted₁ ++ promoted₂)) ∧
      second.2.registry = once.2.registry := by
  intro first second once
  have enough₁ := Nat.le_trans fits (UInt64.le_iff_toNat_le.1 h₁)
  have enough₂ := Nat.le_trans enough₁ (UInt64.le_iff_toNat_le.1 h₂)
  obtain ⟨hfirst, hgrown⟩ := handle_resize found enough₁ accepts₁
  change first.2.registry = _ at hgrown
  have found₁ : first.2.registry.catalog.lookup key =
      some (ref, s.withSeats (s.seats.resize n₁)) := by
    rw [hgrown]
    exact Registry.lookup_putSeats_self found _
  obtain ⟨hsecond, hend⟩ := handle_resize found₁
    (Nat.le_trans (Seats.size_resize_le fits enough₁) (UInt64.le_iff_toNat_le.1 h₂)) accepts₂
  obtain ⟨honce, hdone⟩ := handle_resize (o := { o with outbox := outbox }) found enough₂ accepts
  refine ⟨_, _, hfirst, hsecond, honce.trans ?_, hend.trans (Eq.trans ?_ hdone.symm)⟩
  · exact congrArg _ (congrArg Answer.promoted (Seats.promoted_append h₁ h₂).symm)
  · rw [hgrown, Registry.putSection_putSection, ← Seats.resize_resize h₁ h₂]
    rfl

end Office

end CourseRegistration
