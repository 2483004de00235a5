/-!
# Ranks

Identifiers are put in order by an integer that determines them.  One order notion then serves
every key of the library: student and course numbers, section keys and seat claims.  Arithmetic
facts about an order become facts about integers.

The main statement, `eq_of_ascending`, says that a list in ascending order is determined by its
elements.
-/

namespace CourseRegistration

/-- A type whose values are told apart, and put in order, by an integer. -/
class Ranked (α : Type) where
  /-- The integer by which values are compared. -/
  rank : α → Int
  /-- Different values have different ranks. -/
  eq_of_rank_eq : ∀ {a b : α}, rank a = rank b → a = b

export Ranked (rank eq_of_rank_eq)

theorem rank_eq_iff {α : Type} [Ranked α] {a b : α} : rank a = rank b ↔ a = b :=
  ⟨eq_of_rank_eq, fun h => h ▸ rfl⟩

theorem rank_ne_of_ne {α : Type} [Ranked α] {a b : α} (h : a ≠ b) : rank a ≠ rank b :=
  fun hr => h (eq_of_rank_eq hr)

/-- Two lists with the same elements, both in ascending order of `f`, are equal. -/
theorem eq_of_ascending {α : Type} {f : α → Int} {l m : List α}
    (hl : l.Pairwise fun a b => f a < f b) (hm : m.Pairwise fun a b => f a < f b)
    (h : ∀ a, a ∈ l ↔ a ∈ m) : l = m := by
  induction l generalizing m with
  | nil =>
    cases m with
    | nil => rfl
    | cons b rest => exact absurd ((h b).2 List.mem_cons_self) List.not_mem_nil
  | cons a l ih =>
    cases m with
    | nil => exact absurd ((h a).1 List.mem_cons_self) List.not_mem_nil
    | cons b m =>
      have hl' := List.pairwise_cons.1 hl
      have hm' := List.pairwise_cons.1 hm
      have hab : a = b := by
        rcases List.mem_cons.1 ((h a).1 List.mem_cons_self) with hab | ha
        · exact hab
        · rcases List.mem_cons.1 ((h b).2 List.mem_cons_self) with hba | hb
          · exact hba.symm
          · have := hl'.1 b hb
            have := hm'.1 a ha
            omega
      subst hab
      refine congrArg _ (ih hl'.2 hm'.2 fun c => ?_)
      constructor
      · intro hc
        rcases List.mem_cons.1 ((h c).1 (List.mem_cons_of_mem _ hc)) with rfl | hc'
        · have := hl'.1 c hc
          omega
        · exact hc'
      · intro hc
        rcases List.mem_cons.1 ((h c).2 (List.mem_cons_of_mem _ hc)) with rfl | hc'
        · have := hm'.1 c hc
          omega
        · exact hc'

end CourseRegistration
