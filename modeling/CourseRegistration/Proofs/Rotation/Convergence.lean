import CourseRegistration.Proofs.Rotation.Invariant
import Mathlib.Algebra.Order.BigOperators.Group.Finset
import Mathlib.Data.Finset.Card

/-!
# A rotation converges

No order of attempts leads a rotation into a dead end.  If it did, the group ahead of everyone with
moves left would be full.  A full group has two students, and those who have finished are in
different groups, so one of the two has moves left, and the next group is full as well; the full
groups are closed under steps around the ring.  So every student in a full group started in a full
group, and the places give a map from the full groups to themselves that reaches each of them.  Such
a map of a finite set is injective, but a full group has two students.  This is `exists_room`.

Once all have finished, everyone is in a group of their own, and a group of one student has the
student registered and nobody waiting.  The headline `rotation_converges` puts these together.
-/

namespace CourseRegistration

open Journal

namespace Rotation

variable {rot : Rotation} {r : Registry} {wins : Nat → Nat} {g i : Nat}

namespace Invariant

variable (h : rot.Invariant r wins)
include h

/-! ## No dead ends -/

/-- A full group has two students. -/
lemma exists_two (hg : g < rot.size) (full : rot.Full r g) :
    ∃ i < rot.size, ∃ j < rot.size, i ≠ j ∧
      rot.place i (wins i) = g ∧ rot.place j (wins j) = g := by
  obtain ⟨ref, s, found, hs⟩ := h.groups g hg
  obtain ⟨x, y, hxy, hx, hy⟩ :=
    hs.narrow.exists_two (h.orderly found) ((full_iff found).1 full)
  rw [h.holds_iff hg found] at hx hy
  refine ⟨_, hx.1, _, hy.1, fun he => hxy ?_, hx.2, hy.2⟩
  rw [← student_toNat x, he, student_toNat]

/-- If everyone who has moves left is stuck, a full group is followed by a full group. -/
lemma full_succ
    (stuck : ∀ i < rot.size, wins i < rot.rounds → rot.Full r (rot.place i (wins i + 1)))
    (hg : g < rot.size) (full : rot.Full r g) : rot.Full r ((g + rot.step) % rot.size) := by
  obtain ⟨i, hi, j, hj, hij, hplace_i, hplace_j⟩ := h.exists_two hg full
  have ahead : ∀ k < rot.size, rot.place k (wins k) = g → wins k < rot.rounds →
      rot.Full r ((g + rot.step) % rot.size) := by
    intro k hk hplace unfinished
    rw [← hplace, place_succ]
    exact stuck k hk unfinished
  by_cases hi_left : wins i < rot.rounds
  · exact ahead i hi hplace_i hi_left
  · refine ahead j hj hplace_j (Nat.lt_of_le_of_ne (h.bounded j hj) fun hj_done => hij ?_)
    -- two students who have finished cannot be in one group
    have hi_done : wins i = rot.rounds :=
      Nat.le_antisymm (h.bounded i hi) (Nat.le_of_not_lt hi_left)
    rw [hi_done] at hplace_i
    rw [hj_done] at hplace_j
    exact place_inj hi hj (hplace_i.trans hplace_j.symm)

/-- As long as someone has moves left, someone with moves left has a place ahead. -/
theorem exists_room (hmore : ∃ i < rot.size, wins i < rot.rounds) :
    ∃ i < rot.size, wins i < rot.rounds ∧ ¬ rot.Full r (rot.place i (wins i + 1)) := by
  classical
  by_contra hnone
  push Not at hnone
  have hsteps : ∀ (m : Nat) {g}, g < rot.size → rot.Full r g →
      rot.Full r ((g + m * rot.step) % rot.size) := by
    intro m
    induction m with
    | zero =>
      intro g hg full
      rwa [Nat.zero_mul, Nat.add_zero, Nat.mod_eq_of_lt hg]
    | succ m ih =>
      intro g hg full
      have hnext := h.full_succ hnone (Nat.mod_lt _ size_pos) (ih hg full)
      rwa [Nat.mod_add_mod, Nat.add_assoc, ← Nat.succ_mul] at hnext
  -- whoever is in a full group can go on around the ring to where they started
  have hback : ∀ i < rot.size, rot.Full r (rot.place i (wins i)) → rot.Full r i := by
    intro i hi full
    have hround := hsteps (wins i * (rot.size - 1)) place_lt full
    have hturns : wins i + wins i * (rot.size - 1) = rot.size * wins i := by
      rw [Nat.add_comm, ← Nat.mul_succ, Nat.succ_eq_add_one, Nat.sub_add_cancel size_pos,
        Nat.mul_comm]
    rwa [place_add, hturns, place_turns hi] at hround
  let full : Finset Nat := (Finset.range rot.size).filter (rot.Full r)
  have mem_full : ∀ {g}, g ∈ full ↔ g < rot.size ∧ rot.Full r g := by
    intro g
    rw [Finset.mem_filter, Finset.mem_range]
  have hmaps : Set.MapsTo (fun i => rot.place i (wins i)) full full := by
    intro i hi
    obtain ⟨hi, hfull⟩ := mem_full.1 hi
    exact mem_full.2 ⟨place_lt, hsteps (wins i) hi hfull⟩
  have hsurj : Set.SurjOn (fun i => rot.place i (wins i)) full full := by
    intro g hg
    obtain ⟨hg, hfull⟩ := mem_full.1 hg
    obtain ⟨i, hi, -, -, -, hplace, -⟩ := h.exists_two hg hfull
    exact ⟨i, mem_full.2 ⟨hi, hback i hi (hplace ▸ hfull)⟩, hplace⟩
  have hinj := Finset.injOn_of_surjOn_of_card_le _ hmaps hsurj (Nat.le_refl _)
  obtain ⟨i, hi, unfinished⟩ := hmore
  have hfull := hnone i hi unfinished
  obtain ⟨j, hj, k, hk, hjk, hplace_j, hplace_k⟩ := h.exists_two place_lt hfull
  refine hjk (hinj (mem_full.2 ⟨hj, hback j hj ?_⟩) (mem_full.2 ⟨hk, hback k hk ?_⟩) ?_)
  · rwa [hplace_j]
  · rwa [hplace_k]
  · exact hplace_j.trans hplace_k.symm

/-! ## The end -/

/-- Once all have finished, every group has one student, who is registered. -/
lemma finished_group (finished : ∀ i < rot.size, wins i = rot.rounds) (hg : g < rot.size) :
    ∃ ref s, r.catalog.lookup (rot.key g) = some (ref, s) ∧
      s.seats.registered.size = 1 ∧ s.seats.waitlist = [] := by
  obtain ⟨ref, s, found, hs⟩ := h.groups g hg
  obtain ⟨i, hi, hplace⟩ := exists_place rot.rounds hg
  refine ⟨ref, s, found, hs.narrow.of_only (x := student i) (h.orderly found) ?_ fun y hy => ?_⟩
  · rw [h.holds_iff hg found, toNat_student hi, finished i hi]
    exact ⟨hi, hplace⟩
  · rw [h.holds_iff hg found] at hy
    rw [finished _ hy.1] at hy
    have hnumber := place_inj hy.1 hi (hy.2.trans hplace.symm)
    rw [← student_toNat y, hnumber]

end Invariant

/-- From every state, attempts can go on until all have finished. -/
theorem Reachable.exists_finished (setting : rot.Setting) (h : rot.Reachable r wins) :
    ∃ r' wins', rot.Reachable r' wins' ∧ ∀ i < rot.size, wins' i = rot.rounds := by
  generalize hleft : ∑ i ∈ Finset.range rot.size, (rot.rounds - wins i) = left
  induction left using Nat.strongRecOn generalizing r wins with
  | ind left ih =>
    have hinv := h.invariant
    by_cases hmore : ∃ i < rot.size, wins i < rot.rounds
    · obtain ⟨i, hi, unfinished, room⟩ := hinv.exists_room hmore
      obtain ⟨report, o, htried, houtcome, -⟩ := hinv.attempt_room setting hi unfinished room
      have hnext := Reachable.attempt setting h hi unfinished htried
      rw [if_pos houtcome] at hnext
      refine ih _ ?_ hnext rfl
      rw [← hleft]
      refine Finset.sum_lt_sum (fun j _ => ?_) ⟨i, Finset.mem_range.2 hi, ?_⟩
      · by_cases hji : j = i
        · rw [hji, Function.update_self]
          omega
        · rw [Function.update_of_ne hji]
      · rw [Function.update_self]
        omega
    · refine ⟨r, wins, h, fun i hi => Nat.le_antisymm (hinv.bounded i hi) ?_⟩
      exact Nat.le_of_not_lt fun hlt => hmore ⟨i, hi, hlt⟩

/-- **A rotation never gets stuck and ends with everyone in the seat that the moves lead to.**
Attempts are made in any order and number by students who have moves left.  Each is successful, or
is refused because no place is left and changes nothing.  As long as a student has moves left, an
attempt of some such student would be successful.  And when all have made all their moves, student
`i` has moved around from group `i`, and every group has one registered student and nobody
waiting. -/
theorem rotation_converges (rot : Rotation) {r : Registry} {wins : Nat → Nat}
    (h : rot.Reachable r wins) :
    (∀ i < rot.size, wins i < rot.rounds → ∀ setting : rot.Setting, ∃ report o,
      rot.attempt r setting i = some (report, o) ∧
      (report.outcome = .done .done ∨ report.outcome = .failed .noPlaceLeft ∧ o.registry = r)) ∧
    ((∃ i < rot.size, wins i < rot.rounds) → ∃ i < rot.size, wins i < rot.rounds ∧
      ∀ setting : rot.Setting, ∃ report o, rot.attempt r setting i = some (report, o) ∧
        report.outcome = .done .done) ∧
    ((∀ i < rot.size, wins i = rot.rounds) →
      (∀ i < rot.size,
        rot.current r i = some (group ((i + rot.rounds * rot.step) % rot.size))) ∧
      ∀ g < rot.size, ∃ ref s, r.catalog.lookup (rot.key g) = some (ref, s) ∧
        s.seats.registered.size = 1 ∧ s.seats.waitlist = []) := by
  have hinv := h.invariant
  refine ⟨fun i hi unfinished setting => ?_, fun hmore => ?_, fun finished => ?_⟩
  · by_cases full : rot.Full r (rot.place i (wins i + 1))
    · obtain ⟨report, htried, houtcome⟩ := hinv.attempt_full setting hi unfinished full
      exact ⟨report, _, htried, .inr ⟨houtcome, rfl⟩⟩
    · obtain ⟨report, o, htried, houtcome, -⟩ := hinv.attempt_room setting hi unfinished full
      exact ⟨report, o, htried, .inl houtcome⟩
  · obtain ⟨i, hi, unfinished, room⟩ := hinv.exists_room hmore
    refine ⟨i, hi, unfinished, fun setting => ?_⟩
    obtain ⟨report, o, htried, houtcome, -⟩ := hinv.attempt_room setting hi unfinished room
    exact ⟨report, o, htried, houtcome⟩
  · refine ⟨fun i hi => ?_, fun g hg => hinv.finished_group finished hg⟩
    rw [hinv.current_eq hi, finished i hi]
    rfl

/-- Three groups, from each of which the student moves back once. -/
def small : Rotation where
  size := 3
  step := 2
  rounds := 1
  course := ⟨100⟩
  units := 3
  department _ := ⟨7⟩
  lecturer _ := "staff"
  gender _ := .female
  windowStart _ := -1
  departments := .empty
  two_le_size := by decide
  size_le := by decide
  step_mod := by decide
  one_le_rounds := by decide
  rounds_le := by decide

/-- The start of 1970, and a journal that accepts everything. -/
def smallSetting : small.Setting where
  now := .epoch
  outbox := .script .accepting
  cancelled := false
  opened _ _ := (by decide : windowOpen (-1) .epoch = true)
  accepts _ := rfl

/-- The three students can finish, and then each is one group back. -/
theorem rotation_converges_small : ∃ r wins, small.Reachable r wins ∧
    (∀ i < small.size, wins i = small.rounds) ∧
    (∀ i < small.size, small.current r i = some (group ((i + 2) % 3))) ∧
    ∀ g < small.size, ∃ ref s, r.catalog.lookup (small.key g) = some (ref, s) ∧
      s.seats.registered.size = 1 ∧ s.seats.waitlist = [] := by
  obtain ⟨r, wins, h, finished⟩ := Reachable.exists_finished smallSetting .start
  obtain ⟨-, -, hend⟩ := rotation_converges small h
  exact ⟨r, wins, h, finished, hend finished⟩

end Rotation

end CourseRegistration
