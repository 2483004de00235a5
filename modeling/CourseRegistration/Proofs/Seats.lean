import CourseRegistration.Section.Seats
import Mathlib.Data.List.Nodup
import Mathlib.Tactic.Lemma

/-!
# Who has a place

The operations on seats are told apart by who has a place afterwards.  That is plain for a student
who is given one, but a student who leaves is really gone, and nobody else with them, only if no
student had two places to begin with.  Seats where that is so are `Orderly`; every operation keeps
them so, provided that whoever is given a place has none yet.
-/

namespace CourseRegistration.Seats

variable {s : Seats} {x y : StudentId} {place : Place} {n : UInt64}

lemma holds_iff : s.holds x = true ↔ x ∈ s.registered ∨ x ∈ s.waitlist := by
  simp [holds]

lemma not_holds_iff : s.holds x = false ↔ x ∉ s.registered ∧ x ∉ s.waitlist := by
  simp [holds]

/-- Nobody has two places: a waiting student waits once and is not registered. -/
structure Orderly (s : Seats) : Prop where
  /-- Nobody waits twice. -/
  nodup : s.waitlist.Nodup
  /-- Nobody who is registered also waits. -/
  separate : ∀ {x}, x ∈ s.registered → x ∉ s.waitlist

lemma orderly_vacant (capacity reserve : UInt64) : (vacant capacity reserve).Orderly :=
  ⟨List.nodup_nil, fun _ => List.not_mem_nil⟩

@[simp] lemma holds_vacant (capacity reserve : UInt64) :
    (vacant capacity reserve).holds x = false := by
  rw [Bool.eq_false_iff, ne_eq, holds_iff]
  exact fun h => h.elim List.not_mem_nil List.not_mem_nil

/-! ## Positions -/

lemma position?_of_registered (h : x ∈ s.registered) : s.position? x = some 0 :=
  if_pos h

lemma position?_of_waiting (h : x ∉ s.registered) (hwaits : x ∈ s.waitlist) :
    s.position? x = some (s.waitlist.idxOf x + 1) := by
  obtain ⟨i, hi⟩ := Option.isSome_iff_exists.1 (List.isSome_idxOf?.2 hwaits)
  rw [position?, if_neg h, List.idxOf_eq_getD_idxOf?, hi]
  rfl

/-- Whoever has a place has a position. -/
lemma position?_isSome_iff : (s.position? x).isSome = true ↔ s.holds x = true := by
  unfold position?
  split_ifs with hreg <;> simp [holds_iff, hreg]

lemma position?_eq_zero_iff : s.position? x = some 0 ↔ x ∈ s.registered := by
  unfold position?
  split_ifs with hreg <;> simp [hreg]

/-- A waiting student stands where the waitlist has them. -/
lemma Orderly.position?_eq_succ_iff (hs : s.Orderly) {i : Nat} :
    s.position? x = some (i + 1) ↔ s.waitlist[i]? = some x := by
  have hindex : s.waitlist.idxOf? x = some i ↔ s.waitlist[i]? = some x := by
    rw [List.idxOf?_eq_some_iff, List.getElem?_eq_some_iff]
    refine exists_congr fun hlt => and_iff_left_of_imp fun hx j hj hj' => ?_
    have hsame := hs.nodup.getElem_inj_iff.1 (hj'.trans hx.symm)
    omega
  unfold position?
  split_ifs with hreg
  · refine iff_of_false nofun fun hwaits => ?_
    exact hs.separate hreg (List.mem_of_getElem? hwaits)
  · rw [← hindex]
    simp

/-! ## Giving a place -/

lemma holds_give : (s.give x place).holds y = true ↔ y = x ∨ s.holds y = true := by
  simp only [holds_iff]
  cases place with
  | registered =>
    simp only [give, OrderedSet.mem_insert]
    tauto
  | waitlisted =>
    simp only [give, List.mem_append, List.mem_singleton]
    tauto

lemma Orderly.give (hs : s.Orderly) (hx : s.holds x = false) (place : Place) :
    (s.give x place).Orderly := by
  obtain ⟨hregistered, hwaitlist⟩ := not_holds_iff.1 hx
  cases place with
  | registered =>
    refine ⟨hs.nodup, fun {y} hy hw => ?_⟩
    rcases OrderedSet.mem_insert.1 hy with rfl | hy
    · exact hwaitlist hw
    · exact hs.separate hy hw
  | waitlisted =>
    constructor
    · refine List.nodup_append.2 ⟨hs.nodup, List.nodup_singleton x, fun a ha b hb => ?_⟩
      rw [List.mem_singleton.1 hb]
      rintro rfl
      exact hwaitlist ha
    · intro y hy hw
      rcases List.mem_append.1 hw with hw | hw
      · exact hs.separate hy hw
      · rw [List.mem_singleton.1 hw] at hy
        exact hregistered hy

/-! ## Taking a place back -/

/-- The three ways in which a place is taken back: from a registered student whom nobody follows,
from a registered student whom the head of the waitlist follows, or from the waitlist. -/
lemma vacate_cases (s : Seats) (x : StudentId) :
    (x ∈ s.registered ∧ s.waitlist = [] ∧
      s.vacate x = { s with registered := s.registered.erase x }) ∨
    (∃ next rest, x ∈ s.registered ∧ s.waitlist = next :: rest ∧
      s.vacate x = { s with registered := (s.registered.erase x).insert next, waitlist := rest }) ∨
    (x ∉ s.registered ∧ s.vacate x = { s with waitlist := s.waitlist.erase x }) := by
  unfold vacate
  by_cases hx : x ∈ s.registered
  · cases hw : s.waitlist with
    | nil => simp [hx]
    | cons next rest => simp [hx]
  · simp [hx]

lemma holds_vacate (hs : s.Orderly) :
    (s.vacate x).holds y = true ↔ y ≠ x ∧ s.holds y = true := by
  simp only [holds_iff]
  rcases vacate_cases s x with ⟨-, hw, he⟩ | ⟨next, rest, hx, hw, he⟩ | ⟨hx, he⟩
  · simp [he, hw]
  · -- the head of the waitlist has a place before and after, and is not the student who leaves
    have hnext : x ∉ next :: rest := hw ▸ hs.separate hx
    simp only [List.mem_cons, not_or] at hnext
    simp only [he, hw, OrderedSet.mem_insert, OrderedSet.mem_erase, List.mem_cons]
    constructor
    · rintro ((rfl | ⟨hne, hy⟩) | hy)
      · exact ⟨Ne.symm hnext.1, .inr (.inl rfl)⟩
      · exact ⟨hne, .inl hy⟩
      · exact ⟨fun h => hnext.2 (h ▸ hy), .inr (.inr hy)⟩
    · rintro ⟨hne, hy | rfl | hy⟩
      · exact .inl (.inr ⟨hne, hy⟩)
      · exact .inl (.inl rfl)
      · exact .inr hy
  · simp only [he, hs.nodup.mem_erase_iff]
    constructor
    · rintro (hy | hy)
      · exact ⟨fun h => hx (h ▸ hy), .inl hy⟩
      · exact ⟨hy.1, .inr hy.2⟩
    · rintro ⟨hne, hy | hy⟩
      · exact .inl hy
      · exact .inr ⟨hne, hy⟩

lemma Orderly.vacate (hs : s.Orderly) (x : StudentId) : (s.vacate x).Orderly := by
  rcases vacate_cases s x with ⟨-, -, he⟩ | ⟨next, rest, -, hw, he⟩ | ⟨-, he⟩
  · rw [he]
    exact ⟨hs.nodup, fun hy => hs.separate (OrderedSet.mem_erase.1 hy).2⟩
  · have hnodup : next ∉ rest ∧ rest.Nodup := List.nodup_cons.1 (hw ▸ hs.nodup)
    rw [he]
    refine ⟨hnodup.2, fun {y} hy => ?_⟩
    rcases OrderedSet.mem_insert.1 hy with rfl | hy
    · exact hnodup.1
    · have hsep : y ∉ next :: rest := hw ▸ hs.separate (OrderedSet.mem_erase.1 hy).2
      exact fun h => hsep (List.mem_cons_of_mem _ h)
  · rw [he]
    exact ⟨hs.nodup.erase x, fun hy h => hs.separate hy (List.mem_of_mem_erase h)⟩

/-! ## Another capacity -/

/-- Whoever moves up keeps a place, so another capacity changes nothing about who has one. -/
lemma holds_resize : (s.resize n).holds x = true ↔ s.holds x = true := by
  simp only [holds_iff, resize, OrderedSet.mem_insertAll, promoted]
  have hsplit : x ∈ s.waitlist ↔
      x ∈ s.waitlist.take (s.promotable n) ∨ x ∈ s.waitlist.drop (s.promotable n) := by
    rw [← List.mem_append, List.take_append_drop]
  rw [hsplit]
  tauto

lemma Orderly.resize (hs : s.Orderly) (n : UInt64) : (s.resize n).Orderly := by
  constructor
  · exact hs.nodup.sublist (List.drop_sublist _ _)
  · intro x hx hw
    rcases OrderedSet.mem_insertAll.1 hx with hx | hx
    · exact List.disjoint_take_drop hs.nodup (Nat.le_refl _) hx hw
    · exact hs.separate hx (List.mem_of_mem_drop hw)

end CourseRegistration.Seats
