import CourseRegistration.Ordered.Map
import CourseRegistration.Ordered.Set
import Mathlib.Data.List.Basic
import Mathlib.Tactic.Lemma

/-!
# Sizes and lookups of ordered containers

How many elements a set has once some are added or taken out, what a changed map answers at any key
at all, and which entries it has.
-/

namespace CourseRegistration

lemma nodup_of_ascending {α : Type} {f : α → Int} {l : List α}
    (h : l.Pairwise fun a b => f a < f b) : l.Nodup := by
  refine h.imp fun {a b} hab he => ?_
  subst he
  exact Int.lt_irrefl _ hab

namespace OrderedMap

variable {κ ν : Type} [Ranked κ] [DecidableEq κ]

lemma get?_insert (m : OrderedMap κ ν) (k j : κ) (v : ν) :
    (m.insert k v).get? j = if j = k then some v else m.get? j := by
  by_cases h : j = k
  · subst h
    simp
  · simp [h, get?_insert_of_ne]

lemma get?_erase (m : OrderedMap κ ν) (k j : κ) :
    (m.erase k).get? j = if j = k then none else m.get? j := by
  by_cases h : j = k
  · subst h
    simp
  · simp [h, get?_erase_of_ne]

lemma contains_insert {m : OrderedMap κ ν} {k j : κ} {v : ν} :
    (m.insert k v).contains j = true ↔ j = k ∨ m.contains j = true := by
  rw [contains, get?_insert, contains]
  split_ifs with h
  · simp [h]
  · simp [h]

omit [DecidableEq κ] in
lemma nodup_entries (m : OrderedMap κ ν) : m.entries.Nodup :=
  nodup_of_ascending m.ascending

/-- A new key adds its entry to those of the map. -/
lemma entries_insert_perm {m : OrderedMap κ ν} {k : κ} (h : m.get? k = none) (v : ν) :
    (m.insert k v).entries.Perm ((k, v) :: m.entries) := by
  have hnew : (k, v) ∉ m.entries := by
    rw [← get?_eq_some_iff, h]
    nofun
  refine (List.perm_ext_iff_of_nodup (nodup_entries _)
    (List.nodup_cons.2 ⟨hnew, m.nodup_entries⟩)).2 fun (j, w) => ?_
  rw [← get?_eq_some_iff, get?_insert, List.mem_cons, ← get?_eq_some_iff, Prod.mk.injEq]
  split_ifs with hj
  · subst hj
    simp [h, eq_comm]
  · simp [hj]

/-- A key that is erased takes its entry with it and nothing else. -/
lemma entries_erase_perm {m : OrderedMap κ ν} {k : κ} {v : ν} (h : m.get? k = some v) :
    m.entries.Perm ((k, v) :: (m.erase k).entries) := by
  have hgone : (k, v) ∉ (m.erase k).entries := by
    rw [← get?_eq_some_iff, get?_erase_self]
    nofun
  refine (List.perm_ext_iff_of_nodup m.nodup_entries
    (List.nodup_cons.2 ⟨hgone, nodup_entries _⟩)).2 fun (j, w) => ?_
  rw [← get?_eq_some_iff, List.mem_cons, ← get?_eq_some_iff, get?_erase, Prod.mk.injEq]
  split_ifs with hj
  · subst hj
    simp [h, eq_comm]
  · simp [hj]

/-- Erasing a new key is as if it had not been put in. -/
lemma erase_insert {m : OrderedMap κ ν} {k : κ} (h : m.get? k = none) (v : ν) :
    (m.insert k v).erase k = m := by
  refine ext_get? fun j => ?_
  rw [get?_erase, get?_insert]
  split_ifs with hj
  · rw [hj, h]
  · rfl

/-- Of two values at one key the later one stays. -/
lemma insert_insert (m : OrderedMap κ ν) (k : κ) (v w : ν) :
    (m.insert k v).insert k w = m.insert k w := by
  refine ext_get? fun j => ?_
  simp only [get?_insert]
  split_ifs <;> rfl

/-- Putting in what is there changes nothing. -/
lemma insert_of_get? {m : OrderedMap κ ν} {k : κ} {v : ν} (h : m.get? k = some v) :
    m.insert k v = m := by
  refine ext_get? fun j => ?_
  rw [get?_insert]
  split_ifs with hj
  · rw [hj, h]
  · rfl

/-- Replacing a value is erasing it and putting another in its place. -/
lemma insert_erase (m : OrderedMap κ ν) (k : κ) (v : ν) :
    (m.erase k).insert k v = m.insert k v := by
  refine ext_get? fun j => ?_
  rw [get?_insert, get?_insert, get?_erase]
  split_ifs <;> rfl

/-- Values of different keys can be put in either order. -/
lemma insert_comm (m : OrderedMap κ ν) {j k : κ} (h : j ≠ k) (v w : ν) :
    (m.insert j v).insert k w = (m.insert k w).insert j v := by
  refine ext_get? fun i => ?_
  simp only [get?_insert]
  split_ifs with hk hj
  · exact absurd (hj.symm.trans hk) h
  · rfl
  · rfl
  · rfl

/-! ## Many entries -/

section

variable {α : Type} {key : α → κ} {value : α → ν} {l : List α} {m : OrderedMap κ ν} {k : κ}

/-- Entries of other keys do not matter. -/
lemma get?_foldl_insert_of_not_mem (h : k ∉ l.map key) :
    (l.foldl (fun m a => m.insert (key a) (value a)) m).get? k = m.get? k := by
  induction l generalizing m with
  | nil => rfl
  | cons a rest ih =>
    rw [List.map_cons, List.mem_cons, not_or] at h
    rw [List.foldl_cons, ih h.2, get?_insert, if_neg h.1]

/-- Of entries with different keys each is found. -/
lemma get?_foldl_insert_of_mem (hl : (l.map key).Nodup) {a : α} (ha : a ∈ l) :
    (l.foldl (fun m a => m.insert (key a) (value a)) m).get? (key a) = some (value a) := by
  induction l generalizing m with
  | nil => exact absurd ha List.not_mem_nil
  | cons b rest ih =>
    rw [List.map_cons, List.nodup_cons] at hl
    rw [List.foldl_cons]
    rcases List.mem_cons.1 ha with rfl | ha
    · rw [get?_foldl_insert_of_not_mem hl.1, get?_insert, if_pos rfl]
    · exact ih hl.2 ha

/-- What is found is one of the entries. -/
lemma get?_foldl_insert_eq_some {v : ν} (hl : (l.map key).Nodup)
    (h : (l.foldl (fun m a => m.insert (key a) (value a)) empty).get? k = some v) :
    ∃ a ∈ l, key a = k ∧ value a = v := by
  by_cases hk : k ∈ l.map key
  · obtain ⟨a, ha, rfl⟩ := List.mem_map.1 hk
    rw [get?_foldl_insert_of_mem hl ha, Option.some.injEq] at h
    exact ⟨a, ha, rfl, h⟩
  · rw [get?_foldl_insert_of_not_mem hk] at h
    cases h

lemma contains_foldl_insert (hl : (l.map key).Nodup) :
    (l.foldl (fun m a => m.insert (key a) (value a)) empty).contains k = true ↔
      ∃ a ∈ l, key a = k := by
  rw [contains, Option.isSome_iff_exists]
  constructor
  · rintro ⟨v, hv⟩
    obtain ⟨a, ha, hk, -⟩ := get?_foldl_insert_eq_some hl hv
    exact ⟨a, ha, hk⟩
  · rintro ⟨a, ha, rfl⟩
    exact ⟨value a, get?_foldl_insert_of_mem hl ha⟩

/-- The entries that were put in are all that there are. -/
lemma entries_foldl_insert_perm (hl : (l.map key).Nodup) :
    (l.foldl (fun m a => m.insert (key a) (value a)) empty).entries.Perm
      (l.map fun a => (key a, value a)) := by
  have hnodup : (l.map fun a => (key a, value a)).Nodup := by
    rw [List.Nodup, List.pairwise_map] at hl ⊢
    exact hl.imp fun hne he => hne (congrArg Prod.fst he)
  refine (List.perm_ext_iff_of_nodup (nodup_entries _) hnodup).2 fun (k, v) => ?_
  rw [← get?_eq_some_iff, List.mem_map]
  constructor
  · intro h
    obtain ⟨a, ha, hk, hv⟩ := get?_foldl_insert_eq_some hl h
    exact ⟨a, ha, by rw [hk, hv]⟩
  · rintro ⟨a, ha, he⟩
    rw [← (Prod.mk.inj he).1, ← (Prod.mk.inj he).2]
    exact get?_foldl_insert_of_mem hl ha

/-- Entries of different keys can be put in in any order. -/
lemma foldl_insert_perm {l' : List α} (h : l.Perm l') (hl : (l.map key).Nodup) :
    l.foldl (fun m a => m.insert (key a) (value a)) empty =
      l'.foldl (fun m a => m.insert (key a) (value a)) empty := by
  have hl' : (l'.map key).Nodup := (h.map key).nodup_iff.1 hl
  refine ext_get? fun k => ?_
  by_cases hk : k ∈ l.map key
  · obtain ⟨a, ha, rfl⟩ := List.mem_map.1 hk
    rw [get?_foldl_insert_of_mem hl ha, get?_foldl_insert_of_mem hl' (h.mem_iff.1 ha)]
  · have hk' : k ∉ l'.map key := fun hmem => hk ((h.map key).mem_iff.2 hmem)
    rw [get?_foldl_insert_of_not_mem hk, get?_foldl_insert_of_not_mem hk']

omit [DecidableEq κ] in
lemma nodup_keys (m : OrderedMap κ ν) : (m.entries.map (·.1)).Nodup := by
  have hkeys : (m.entries.map (·.1)).Pairwise fun j k => rank j < rank k :=
    List.pairwise_map.2 m.ascending
  exact nodup_of_ascending hkeys

/-- A map is made again from its entries. -/
lemma foldl_insert_entries (m : OrderedMap κ ν) :
    m.entries.foldl (fun m e => m.insert e.1 e.2) empty = m := by
  refine ext_get? fun k => ?_
  by_cases hk : k ∈ m.entries.map (·.1)
  · obtain ⟨⟨k, v⟩, he, rfl⟩ := List.mem_map.1 hk
    rw [get?_eq_some_iff.2 he]
    exact get?_foldl_insert_of_mem m.nodup_keys he
  · have hnone : m.get? k = none := by
      rw [Option.eq_none_iff_forall_ne_some]
      intro v hv
      exact hk (List.mem_map.2 ⟨(k, v), get?_eq_some_iff.1 hv, rfl⟩)
    rw [hnone]
    exact get?_foldl_insert_of_not_mem hk

end

end OrderedMap

namespace OrderedSet

variable {α : Type} [Ranked α]

lemma nodup_items (s : OrderedSet α) : s.items.Nodup :=
  nodup_of_ascending s.ascending

/-- Sets with the same elements have the same size as any list of them without repeats. -/
lemma size_eq_of_perm {s : OrderedSet α} {l : List α} (hl : l.Nodup) (h : ∀ a, a ∈ s ↔ a ∈ l) :
    s.size = l.length :=
  ((List.perm_ext_iff_of_nodup s.nodup_items hl).2 h).length_eq

lemma size_insert {s : OrderedSet α} {a : α} (h : a ∉ s) : (s.insert a).size = s.size + 1 := by
  have hnodup : (a :: s.items).Nodup := List.nodup_cons.2 ⟨h, s.nodup_items⟩
  rw [size_eq_of_perm hnodup fun b => by rw [mem_insert, List.mem_cons, mem_items]]
  rfl

lemma size_erase {s : OrderedSet α} {a : α} (h : a ∈ s) : (s.erase a).size + 1 = s.size := by
  have hmem : a ∉ s.erase a := fun he => (mem_erase.1 he).1 rfl
  rw [← size_insert hmem]
  congr 1
  refine ext_mem fun b => ?_
  rw [mem_insert, mem_erase]
  constructor
  · rintro (rfl | hb)
    · exact h
    · exact hb.2
  · intro hb
    exact (Classical.em (b = a)).imp_right fun hne => ⟨hne, hb⟩

/-- Taking out a new element is as if it had not been added. -/
lemma erase_insert {s : OrderedSet α} {a : α} (h : a ∉ s) : (s.insert a).erase a = s := by
  refine ext_mem fun b => ?_
  rw [mem_erase, mem_insert]
  constructor
  · rintro ⟨hne, hb⟩
    exact hb.resolve_left hne
  · intro hb
    exact ⟨fun heq => h (heq ▸ hb), .inr hb⟩

lemma insert_of_mem {s : OrderedSet α} {a : α} (h : a ∈ s) : s.insert a = s := by
  refine ext_mem fun b => ?_
  rw [mem_insert]
  exact or_iff_right_of_imp fun hb => hb ▸ h

lemma size_insert_le (s : OrderedSet α) (a : α) : (s.insert a).size ≤ s.size + 1 := by
  by_cases h : a ∈ s
  · rw [insert_of_mem h]
    exact Nat.le_succ _
  · exact Nat.le_of_eq (size_insert h)

lemma size_le_size_insert (s : OrderedSet α) (a : α) : s.size ≤ (s.insert a).size := by
  by_cases h : a ∈ s
  · exact Nat.le_of_eq (by rw [insert_of_mem h])
  · rw [size_insert h]
    exact Nat.le_succ _

lemma insertAll_cons (s : OrderedSet α) (a : α) (l : List α) :
    s.insertAll (a :: l) = (s.insert a).insertAll l :=
  rfl

/-- Adding a list adds no more elements than the list has. -/
lemma size_insertAll_le (s : OrderedSet α) (l : List α) :
    (s.insertAll l).size ≤ s.size + l.length := by
  induction l generalizing s with
  | nil => exact Nat.le_refl _
  | cons a rest ih =>
    have hrest := ih (s.insert a)
    have hone := s.size_insert_le a
    rw [insertAll_cons, List.length_cons]
    omega

/-- Adding different elements that are all new adds as many elements as there are. -/
lemma size_insertAll {s : OrderedSet α} {l : List α} (hl : l.Nodup) (h : ∀ a ∈ l, a ∉ s) :
    (s.insertAll l).size = s.size + l.length := by
  induction l generalizing s with
  | nil => rfl
  | cons a rest ih =>
    have hnodup := List.nodup_cons.1 hl
    have hrest : ∀ b ∈ rest, b ∉ s.insert a := by
      intro b hb hmem
      rcases mem_insert.1 hmem with rfl | hmem
      · exact hnodup.1 hb
      · exact h b (List.mem_cons_of_mem _ hb) hmem
    rw [insertAll_cons, ih hnodup.2 hrest, size_insert (h a List.mem_cons_self), List.length_cons]
    omega

end OrderedSet

end CourseRegistration
