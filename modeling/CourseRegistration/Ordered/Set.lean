import CourseRegistration.Ordered.Rank

/-!
# Ordered sets

A finite set of ranked values, kept as the list of its elements in ascending order.  The order is
part of the type, so a set has one list only: two sets with the same elements are equal
(`OrderedSet.ext_mem`).
-/

namespace CourseRegistration

/-- A finite set, kept as the ascending list of its elements. -/
structure OrderedSet (α : Type) [Ranked α] where
  /-- The elements, in ascending order. -/
  items : List α
  /-- No element comes twice, and a smaller one comes first. -/
  ascending : items.Pairwise fun a b => rank a < rank b

namespace OrderedSet

variable {α : Type} [Ranked α]

theorem ext {s t : OrderedSet α} (h : s.items = t.items) : s = t := by
  cases s
  cases t
  simp_all

instance [DecidableEq α] : DecidableEq (OrderedSet α) := fun s t =>
  decidable_of_iff (s.items = t.items) ⟨ext, fun h => h ▸ rfl⟩

/-- The set without elements. -/
def empty : OrderedSet α :=
  ⟨[], .nil⟩

instance : Inhabited (OrderedSet α) := ⟨empty⟩

instance : Membership α (OrderedSet α) := ⟨fun s a => a ∈ s.items⟩

instance [DecidableEq α] (a : α) (s : OrderedSet α) : Decidable (a ∈ s) :=
  inferInstanceAs (Decidable (a ∈ s.items))

theorem mem_items {a : α} {s : OrderedSet α} : a ∈ s.items ↔ a ∈ s :=
  Iff.rfl

/-- The number of elements. -/
def size (s : OrderedSet α) : Nat :=
  s.items.length

/-! ## Insertion -/

/-- Puts `a` at its place in an ascending list; an element that is already there stays alone. -/
def insertItem (a : α) : List α → List α
  | [] => [a]
  | b :: rest =>
    if rank a < rank b then a :: b :: rest
    else if rank a = rank b then b :: rest
    else b :: insertItem a rest

theorem mem_insertItem {a b : α} {l : List α} : b ∈ insertItem a l ↔ b = a ∨ b ∈ l := by
  induction l with
  | nil => simp [insertItem]
  | cons c rest ih =>
    unfold insertItem
    split
    · simp
    · split
      · rename_i h
        have : a = c := eq_of_rank_eq h
        subst this
        simp
      · simp only [List.mem_cons, ih]
        constructor
        · rintro (h | h | h)
          · exact .inr (.inl h)
          · exact .inl h
          · exact .inr (.inr h)
        · rintro (h | h | h)
          · exact .inr (.inl h)
          · exact .inl h
          · exact .inr (.inr h)

theorem pairwise_insertItem {a : α} {l : List α} (h : l.Pairwise fun a b => rank a < rank b) :
    (insertItem a l).Pairwise fun a b => rank a < rank b := by
  induction l with
  | nil => simp [insertItem]
  | cons c rest ih =>
    have hc := List.pairwise_cons.1 h
    unfold insertItem
    split
    · rename_i hlt
      refine List.pairwise_cons.2 ⟨fun b hb => ?_, h⟩
      rcases List.mem_cons.1 hb with rfl | hb
      · exact hlt
      · have := hc.1 b hb
        omega
    · split
      · exact h
      · refine List.pairwise_cons.2 ⟨fun b hb => ?_, ih hc.2⟩
        rcases mem_insertItem.1 hb with rfl | hb
        · omega
        · exact hc.1 b hb

/-- The set with `a` added. -/
def insert (s : OrderedSet α) (a : α) : OrderedSet α :=
  ⟨insertItem a s.items, pairwise_insertItem s.ascending⟩

@[simp] theorem mem_insert {a b : α} {s : OrderedSet α} : b ∈ s.insert a ↔ b = a ∨ b ∈ s :=
  mem_insertItem

/-- The set with all of `l` added. -/
def insertAll (s : OrderedSet α) (l : List α) : OrderedSet α :=
  l.foldl insert s

@[simp] theorem mem_insertAll {b : α} {s : OrderedSet α} {l : List α} :
    b ∈ s.insertAll l ↔ b ∈ l ∨ b ∈ s := by
  induction l generalizing s with
  | nil => simp [insertAll]
  | cons a rest ih =>
    simp only [insertAll, List.foldl_cons, List.mem_cons] at ih ⊢
    rw [ih, mem_insert]
    grind

/-! ## Removal -/

/-- The set with `a` taken out. -/
def erase (s : OrderedSet α) (a : α) : OrderedSet α :=
  ⟨s.items.filter fun b => rank b != rank a, s.ascending.filter _⟩

@[simp] theorem mem_erase {a b : α} {s : OrderedSet α} : b ∈ s.erase a ↔ b ≠ a ∧ b ∈ s := by
  show b ∈ s.items.filter _ ↔ _
  simp only [List.mem_filter, bne_iff_ne, ne_eq, rank_eq_iff, mem_items]
  exact And.comm

/-! ## Extensionality -/

/-- Sets with the same elements are equal. -/
theorem ext_mem {s t : OrderedSet α} (h : ∀ a, a ∈ s ↔ a ∈ t) : s = t :=
  ext (eq_of_ascending s.ascending t.ascending h)

end OrderedSet

end CourseRegistration
