import CourseRegistration.Ordered.Rank

/-!
# Ordered maps

A finite map from ranked keys, kept as its list of entries in ascending order of key.  Reading
entry by entry therefore visits the keys in ascending order, and a map is determined by what it
answers (`OrderedMap.ext_get?`).
-/

namespace CourseRegistration

/-- A finite map, kept as the list of its entries in ascending order of key. -/
structure OrderedMap (κ ν : Type) [Ranked κ] where
  /-- The entries, smaller keys first. -/
  entries : List (κ × ν)
  /-- No key comes twice, and a smaller one comes first. -/
  ascending : entries.Pairwise fun a b => rank a.1 < rank b.1

namespace OrderedMap

variable {κ ν : Type} [Ranked κ]

theorem ext {m n : OrderedMap κ ν} (h : m.entries = n.entries) : m = n := by
  cases m
  cases n
  simp_all

instance [DecidableEq κ] [DecidableEq ν] : DecidableEq (OrderedMap κ ν) := fun m n =>
  decidable_of_iff (m.entries = n.entries) ⟨ext, fun h => h ▸ rfl⟩

/-- The map without entries. -/
def empty : OrderedMap κ ν :=
  ⟨[], .nil⟩

instance : Inhabited (OrderedMap κ ν) := ⟨empty⟩

/-- The number of entries. -/
def size (m : OrderedMap κ ν) : Nat :=
  m.entries.length

/-- The values, in ascending order of key. -/
def values (m : OrderedMap κ ν) : List ν :=
  m.entries.map (·.2)

/-! ## Looking up -/

/-- The value that a list of entries gives to `k`. -/
def valueAt? (k : κ) : List (κ × ν) → Option ν
  | [] => none
  | (k', v) :: rest => if rank k = rank k' then some v else valueAt? k rest

/-- The value at `k`. -/
def get? (m : OrderedMap κ ν) (k : κ) : Option ν :=
  valueAt? k m.entries

/-- Whether `k` has a value. -/
def contains (m : OrderedMap κ ν) (k : κ) : Bool :=
  (m.get? k).isSome

@[simp] theorem get?_empty (k : κ) : (empty : OrderedMap κ ν).get? k = none :=
  rfl

theorem valueAt?_eq_some_iff {k : κ} {v : ν} {l : List (κ × ν)}
    (hl : l.Pairwise fun a b => rank a.1 < rank b.1) :
    valueAt? k l = some v ↔ (k, v) ∈ l := by
  induction l with
  | nil => simp [valueAt?]
  | cons e rest ih =>
    obtain ⟨k', v'⟩ := e
    have hc := List.pairwise_cons.1 hl
    simp only [valueAt?]
    split
    · rename_i h
      have hk : k = k' := eq_of_rank_eq h
      subst hk
      constructor
      · rintro ⟨⟩
        exact List.mem_cons_self
      · intro hm
        rcases List.mem_cons.1 hm with hm | hm
        · cases hm
          rfl
        · have := hc.1 _ hm
          simp at this
    · rename_i h
      rw [ih hc.2]
      constructor
      · exact List.mem_cons_of_mem _
      · intro hm
        rcases List.mem_cons.1 hm with hm | hm
        · cases hm
          exact absurd rfl h
        · exact hm

/-- A map answers `v` at `k` exactly when it holds that entry. -/
theorem get?_eq_some_iff {m : OrderedMap κ ν} {k : κ} {v : ν} :
    m.get? k = some v ↔ (k, v) ∈ m.entries :=
  valueAt?_eq_some_iff m.ascending

/-! ## Insertion -/

/-- Puts an entry at its place in an ascending list, replacing the one with the same key. -/
def insertEntry (k : κ) (v : ν) : List (κ × ν) → List (κ × ν)
  | [] => [(k, v)]
  | (k', v') :: rest =>
    if rank k < rank k' then (k, v) :: (k', v') :: rest
    else if rank k = rank k' then (k, v) :: rest
    else (k', v') :: insertEntry k v rest

theorem key_of_mem_insertEntry {k : κ} {v : ν} {l : List (κ × ν)} {e : κ × ν}
    (h : e ∈ insertEntry k v l) : e.1 = k ∨ e ∈ l := by
  induction l with
  | nil =>
    simp only [insertEntry, List.mem_singleton] at h
    exact .inl (by rw [h])
  | cons e' rest ih =>
    obtain ⟨k', v'⟩ := e'
    unfold insertEntry at h
    split at h
    · rcases List.mem_cons.1 h with rfl | h
      · exact .inl rfl
      · exact .inr h
    · split at h
      · rcases List.mem_cons.1 h with rfl | h
        · exact .inl rfl
        · exact .inr (List.mem_cons_of_mem _ h)
      · rcases List.mem_cons.1 h with rfl | h
        · exact .inr List.mem_cons_self
        · exact (ih h).imp_right (List.mem_cons_of_mem _)

theorem pairwise_insertEntry {k : κ} {v : ν} {l : List (κ × ν)}
    (h : l.Pairwise fun a b => rank a.1 < rank b.1) :
    (insertEntry k v l).Pairwise fun a b => rank a.1 < rank b.1 := by
  induction l with
  | nil => simp [insertEntry]
  | cons e rest ih =>
    obtain ⟨k', v'⟩ := e
    have hc := List.pairwise_cons.1 h
    unfold insertEntry
    split
    · rename_i hlt
      refine List.pairwise_cons.2 ⟨fun b hb => ?_, h⟩
      rcases List.mem_cons.1 hb with rfl | hb
      · exact hlt
      · have := hc.1 b hb
        simp only at this ⊢
        omega
    · split
      · rename_i heq
        refine List.pairwise_cons.2 ⟨fun b hb => ?_, hc.2⟩
        have := hc.1 b hb
        simp only at this ⊢
        omega
      · refine List.pairwise_cons.2 ⟨fun b hb => ?_, ih hc.2⟩
        rcases key_of_mem_insertEntry hb with hk | hb
        · simp only [hk]
          omega
        · exact hc.1 b hb

/-- The map with `v` at `k`. -/
def insert (m : OrderedMap κ ν) (k : κ) (v : ν) : OrderedMap κ ν :=
  ⟨insertEntry k v m.entries, pairwise_insertEntry m.ascending⟩

theorem valueAt?_insertEntry {k j : κ} {v : ν} {l : List (κ × ν)} :
    valueAt? j (insertEntry k v l) = if rank j = rank k then some v else valueAt? j l := by
  induction l with
  | nil => rfl
  | cons e rest ih =>
    obtain ⟨k', v'⟩ := e
    unfold insertEntry
    split
    · rfl
    · split
      · rename_i h
        simp only [valueAt?, h]
        split <;> rfl
      · simp only [valueAt?, ih]
        split
        · rename_i h
          rw [if_neg (by omega)]
        · rfl

@[simp] theorem get?_insert_self (m : OrderedMap κ ν) (k : κ) (v : ν) :
    (m.insert k v).get? k = some v := by
  rw [get?, insert, valueAt?_insertEntry, if_pos rfl]

theorem get?_insert_of_ne (m : OrderedMap κ ν) {j k : κ} (v : ν) (h : j ≠ k) :
    (m.insert k v).get? j = m.get? j := by
  rw [get?, insert, valueAt?_insertEntry, if_neg (rank_ne_of_ne h), get?]

/-! ## Removal -/

/-- The map without a value at `k`. -/
def erase (m : OrderedMap κ ν) (k : κ) : OrderedMap κ ν :=
  ⟨m.entries.filter fun e => rank e.1 != rank k, m.ascending.filter _⟩

theorem valueAt?_filter_ne {j k : κ} {l : List (κ × ν)} :
    valueAt? j (l.filter fun e => rank e.1 != rank k) =
      if rank j = rank k then none else valueAt? j l := by
  induction l with
  | nil => simp [valueAt?]
  | cons e rest ih =>
    obtain ⟨k', v'⟩ := e
    simp only [List.filter_cons]
    by_cases hk : rank k' = rank k
    · simp only [hk, bne_self_eq_false, Bool.false_eq_true, ↓reduceIte, ih, valueAt?]
      split <;> rfl
    · have hb : (rank k' != rank k) = true := by simpa using hk
      simp only [hb, ↓reduceIte, valueAt?, ih]
      split
      · rename_i h
        rw [if_neg (by omega)]
      · rfl

@[simp] theorem get?_erase_self (m : OrderedMap κ ν) (k : κ) : (m.erase k).get? k = none := by
  rw [get?, erase, valueAt?_filter_ne, if_pos rfl]

theorem get?_erase_of_ne (m : OrderedMap κ ν) {j k : κ} (h : j ≠ k) :
    (m.erase k).get? j = m.get? j := by
  rw [get?, erase, valueAt?_filter_ne, if_neg (rank_ne_of_ne h), get?]

/-! ## Extensionality -/

/-- Maps that answer alike are equal. -/
theorem ext_get? {m n : OrderedMap κ ν} (h : ∀ k, m.get? k = n.get? k) : m = n := by
  refine ext (eq_of_ascending m.ascending n.ascending fun e => ?_)
  rw [← get?_eq_some_iff, ← get?_eq_some_iff, h]

end OrderedMap

end CourseRegistration
