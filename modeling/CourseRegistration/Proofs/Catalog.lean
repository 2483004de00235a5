import CourseRegistration.Catalog
import CourseRegistration.Proofs.Ordered
import Mathlib.Data.List.Basic
import Mathlib.Tactic.Lemma

/-!
# Looking up and changing sections

A section is reached by its reference or by its key.  `get?_set` and `lookup_set` say what both
ways find once a section has been replaced: the new section at its own reference and under its own
key, and what was there before everywhere else.  No listing order matters to either.

Two conditions make keys and references the same thing.  A catalog is `Sound` if every section is
filed under its course and no two have one key; then the section with a given key is found under
that key (`Sound.lookup_key`).  Replacing a section by one with the same key keeps a catalog
sound, and a catalog of sections with different keys is sound to begin with
(`sound_ofSections`).
-/

namespace CourseRegistration

namespace Catalog

variable {c : Catalog} {key key' : SectionKey} {ref ref' : Ref} {s s' : Section}

/-! ## Lookups -/

lemma lookup_eq_some_iff :
    c.lookup key = some (ref, s) ↔ c.find? key = some ref ∧ c.get? ref = some s := by
  simp only [lookup, Option.bind_eq_some_iff, Option.map_eq_some_iff, Prod.mk.injEq]
  constructor
  · rintro ⟨r, hr, t, ht, rfl, rfl⟩
    exact ⟨hr, ht⟩
  · rintro ⟨hr, hs⟩
    exact ⟨ref, hr, s, hs, rfl, rfl⟩

/-- Looking a key up finds the first group of its course that has the key's group. -/
lemma map_snd_lookup (c : Catalog) (key : SectionKey) :
    (c.lookup key).map (·.2) =
      (c.groups key.course).find? fun s => s.key.group = key.group := by
  rw [List.find?_eq_bind_findIdx?_getElem?, lookup, find?]
  cases (c.groups key.course).findIdx? fun s => s.key.group = key.group with
  | none => rfl
  | some i =>
    simp [get?, Function.comp_def]

/-- Looking a key up finds a group of its course at the first position that has the key's group. -/
lemma find?_eq_some_iff :
    c.find? key = some ref ↔ ref.course = key.course ∧
      (c.groups key.course).findIdx? (fun s => s.key.group = key.group) = some ref.index := by
  simp only [find?, Option.map_eq_some_iff]
  constructor
  · rintro ⟨i, hi, rfl⟩
    exact ⟨rfl, hi⟩
  · rintro ⟨hc, hi⟩
    exact ⟨ref.index, hi, by cases ref; simp_all⟩

lemma course_of_lookup (h : c.lookup key = some (ref, s)) : ref.course = key.course :=
  (find?_eq_some_iff.1 (lookup_eq_some_iff.1 h).1).1

lemma get?_of_lookup (h : c.lookup key = some (ref, s)) : c.get? ref = some s :=
  (lookup_eq_some_iff.1 h).2

lemma group_of_lookup (h : c.lookup key = some (ref, s)) : s.key.group = key.group := by
  obtain ⟨hf, hg⟩ := lookup_eq_some_iff.1 h
  obtain ⟨hc, hi⟩ := find?_eq_some_iff.1 hf
  obtain ⟨hlt, hp, -⟩ := List.findIdx?_eq_some_iff_getElem.1 hi
  rw [get?, hc, List.getElem?_eq_getElem hlt, Option.some.injEq] at hg
  simpa [hg] using hp

/-- A reference is found under one key only. -/
lemma key_eq_of_lookup (h : c.lookup key = some (ref, s)) (h' : c.lookup key' = some (ref, s')) :
    key' = key := by
  have hs : s' = s := by
    have := get?_of_lookup h
    rw [get?_of_lookup h', Option.some.injEq] at this
    exact this
  subst hs
  have hc : key'.course = key.course := (course_of_lookup h').symm.trans (course_of_lookup h)
  have hg : key'.group = key.group := (group_of_lookup h').symm.trans (group_of_lookup h)
  cases key
  cases key'
  simp_all

/-! ## Replacing a section -/

lemma groups_set (c : Catalog) (ref : Ref) (s : Section) (course : CourseId) :
    (c.set ref s).groups course =
      if course = ref.course then (c.groups course).set ref.index s else c.groups course := by
  unfold set
  split
  · rename_i h
    split_ifs with hc
    · subst hc
      simp [groups, h]
    · rfl
  · rename_i groups h
    split_ifs with hc
    · subst hc
      simp [Catalog.groups, h]
    · simp [Catalog.groups, OrderedMap.get?_insert_of_ne _ _ hc]

lemma get?_set (h : c.get? ref = some s) (s' : Section) (ref' : Ref) :
    (c.set ref s').get? ref' = if ref' = ref then some s' else c.get? ref' := by
  obtain ⟨course, index⟩ := ref
  obtain ⟨course', index'⟩ := ref'
  have hlt : index < (c.groups course).length := (List.getElem?_eq_some_iff.1 h).1
  simp only [get?, groups_set, Ref.mk.injEq]
  by_cases hc : course' = course
  · subst hc
    by_cases hi : index' = index
    · simp [hi, hlt]
    · simp [hi, List.getElem?_set_ne (Ne.symm hi)]
  · simp [hc]

private lemma findIdx?_set_of_eq {α : Type} {p : α → Bool} {l : List α} {i : Nat} {a b : α}
    (h : l[i]? = some a) (hp : p b = p a) : (l.set i b).findIdx? p = l.findIdx? p := by
  induction l generalizing i with
  | nil => rfl
  | cons x l ih =>
    cases i with
    | zero =>
      rw [List.getElem?_cons_zero, Option.some.injEq] at h
      rw [List.set_cons_zero, List.findIdx?_cons, List.findIdx?_cons, hp, h]
    | succ i =>
      rw [List.getElem?_cons_succ] at h
      rw [List.set_cons_succ, List.findIdx?_cons, List.findIdx?_cons, ih h]

/-- The position of a key is that of its group, so a section of the same group keeps it. -/
lemma find?_set (h : c.get? ref = some s) (hg : s'.key.group = s.key.group) (key : SectionKey) :
    (c.set ref s').find? key = c.find? key := by
  simp only [find?, groups_set]
  split_ifs with hc
  · rw [get?, ← hc] at h
    rw [findIdx?_set_of_eq h (by rw [hg])]
  · rfl

/-- Replacing a section by one of the same group is seen under its own key and no other. -/
lemma lookup_set (h : c.lookup key = some (ref, s)) (s' : Section)
    (hg : s'.key.group = s.key.group) (key' : SectionKey) :
    (c.set ref s').lookup key' = if key' = key then some (ref, s') else c.lookup key' := by
  have hget := get?_of_lookup h
  have hset : ∀ r, (c.set ref s').get? r = if r = ref then some s' else c.get? r :=
    get?_set hget s'
  split_ifs with hk
  · subst hk
    rw [lookup_eq_some_iff, find?_set hget hg, hset, if_pos rfl]
    exact ⟨(lookup_eq_some_iff.1 h).1, rfl⟩
  · simp only [lookup, find?_set hget hg, hset]
    cases hf : c.find? key' with
    | none => rfl
    | some r =>
      have hne : r ≠ ref := by
        rintro rfl
        exact hk (key_eq_of_lookup h (lookup_eq_some_iff.2 ⟨hf, hget⟩))
      simp [hne]

lemma set_set (c : Catalog) (ref : Ref) (s t : Section) :
    (c.set ref s).set ref t = c.set ref t := by
  unfold set
  cases h : c.courses.get? ref.course with
  | none => simp [h]
  | some groups =>
    simp only [OrderedMap.get?_insert_self, List.set_set, mk.injEq]
    refine OrderedMap.ext_get? fun k => ?_
    by_cases hk : k = ref.course
    · subst hk
      simp
    · simp [OrderedMap.get?_insert_of_ne _ _ hk]

/-- Replacing a section by itself changes nothing. -/
lemma set_of_get? (h : c.get? ref = some s) : c.set ref s = c := by
  unfold set
  cases hget : c.courses.get? ref.course with
  | none => rfl
  | some groups =>
    rw [get?, Catalog.groups, hget] at h
    obtain ⟨hlt, rfl⟩ := List.getElem?_eq_some_iff.1 h
    show Catalog.mk (c.courses.insert ref.course (groups.set ref.index groups[ref.index])) = c
    rw [List.set_getElem_self, OrderedMap.insert_of_get? hget]

/-- Sections of different courses can be replaced in either order. -/
lemma set_comm (c : Catalog) (h : ref.course ≠ ref'.course) (s t : Section) :
    (c.set ref s).set ref' t = (c.set ref' t).set ref s := by
  unfold set
  cases hget : c.courses.get? ref.course with
  | none =>
    cases hget' : c.courses.get? ref'.course with
    | none => simp [hget]
    | some groups' => simp [OrderedMap.get?_insert_of_ne _ _ h, hget]
  | some groups =>
    cases hget' : c.courses.get? ref'.course with
    | none => simp [OrderedMap.get?_insert_of_ne _ _ h.symm, hget, hget']
    | some groups' =>
      simp [OrderedMap.get?_insert_of_ne _ _ h, OrderedMap.get?_insert_of_ne _ _ h.symm, hget,
        hget', OrderedMap.insert_comm _ h]

/-- What is found under a key is decided by the groups of its course. -/
lemma lookup_congr {c c' : Catalog} {key : SectionKey}
    (h : c'.groups key.course = c.groups key.course) : c'.lookup key = c.lookup key := by
  have hfind : c'.find? key = c.find? key := by rw [find?, find?, h]
  unfold lookup
  rw [hfind]
  cases hr : c.find? key with
  | none => rfl
  | some r =>
    have hcourse := (find?_eq_some_iff.1 hr).1
    simp only [Option.bind_some, get?, hcourse, h]

/-! ## Listed sections -/

/-- The groups of a course are its sections in the order of the list. -/
lemma groups_ofSections (l : List Section) (course : CourseId) :
    (ofSections l).groups course = l.filter fun s => s.key.course = course := by
  have key : ∀ (l : List Section) (c : Catalog),
      (l.foldl add c).groups course =
        c.groups course ++ l.filter fun s => s.key.course = course := by
    intro l
    induction l with
    | nil => simp
    | cons s l ih =>
      intro c
      rw [List.foldl_cons, ih, List.filter_cons]
      by_cases hc : s.key.course = course
      · simp [add, groups, hc]
      · simp [add, groups, hc, OrderedMap.get?_insert_of_ne _ _ (Ne.symm hc)]
  exact (key l empty).trans (by simp [groups, empty])

lemma mem_of_get?_ofSections {l : List Section} (h : (ofSections l).get? ref = some s) : s ∈ l := by
  rw [get?, groups_ofSections] at h
  exact (List.mem_filter.1 (List.mem_of_getElem? h)).1

/-- Looking a key up finds the first listed section that has it. -/
lemma lookup_ofSections (l : List Section) (key : SectionKey) :
    ((ofSections l).lookup key).map (·.2) = l.find? fun s => s.key = key := by
  rw [map_snd_lookup, groups_ofSections, List.find?_filter]
  congr 1
  funext s
  obtain ⟨⟨course, group⟩, -⟩ := s
  cases key
  simp

/-! ## Sound catalogs -/

/-- Every section is filed under its course, and no two sections have one key. -/
structure Sound (c : Catalog) : Prop where
  /-- A section is among the groups of its own course. -/
  filed : ∀ {ref s}, c.get? ref = some s → ref.course = s.key.course
  /-- Sections at different references have different keys. -/
  distinct : ∀ {ref ref' s s'}, c.get? ref = some s → c.get? ref' = some s' → s.key = s'.key →
    ref = ref'

namespace Sound

/-- What is found under a key has that key. -/
lemma key_of_lookup (hc : c.Sound) (h : c.lookup key = some (ref, s)) : s.key = key := by
  have hcourse : s.key.course = key.course :=
    (hc.filed (get?_of_lookup h)).symm.trans (course_of_lookup h)
  have hgroup : s.key.group = key.group := group_of_lookup h
  cases hk : s.key
  cases key
  simp_all

/-- Every section is found under its key. -/
lemma lookup_key (hc : c.Sound) (h : c.get? ref = some s) : c.lookup s.key = some (ref, s) := by
  have hfiled := hc.filed h
  have hs := h
  rw [get?, hfiled] at hs
  obtain ⟨⟨r, t⟩, hfound⟩ : ∃ p, c.lookup s.key = some p := by
    rw [← Option.isSome_iff_exists, ← Option.isSome_map (f := (·.2)), map_snd_lookup,
      List.find?_isSome]
    exact ⟨s, List.mem_of_getElem? hs, by simp⟩
  have href : r = ref := hc.distinct (get?_of_lookup hfound) h (hc.key_of_lookup hfound)
  subst href
  rw [get?_of_lookup hfound, Option.some.injEq] at h
  rw [hfound, h]

protected lemma set (hc : c.Sound) (h : c.get? ref = some s) (hk : s'.key = s.key) :
    (c.set ref s').Sound := by
  -- every section of the new catalog has the key of the section that was at its place
  have old : ∀ {r t}, (c.set ref s').get? r = some t →
      ∃ t', c.get? r = some t' ∧ t'.key = t.key := by
    intro r t ht
    rw [get?_set h] at ht
    split_ifs at ht with hr
    · subst hr
      cases ht
      exact ⟨s, h, hk.symm⟩
    · exact ⟨t, ht, rfl⟩
  constructor
  · intro r t ht
    obtain ⟨t', ht', hkey⟩ := old ht
    rw [← hkey]
    exact hc.filed ht'
  · intro r r' t t' ht ht' hkey
    obtain ⟨u, hu, hut⟩ := old ht
    obtain ⟨u', hu', hut'⟩ := old ht'
    exact hc.distinct hu hu' (by rw [hut, hut', hkey])

end Sound

/-- Sections with different keys make a sound catalog. -/
lemma sound_ofSections {l : List Section} (h : (l.map (·.key)).Nodup) : (ofSections l).Sound := by
  have hget : ∀ {ref s}, (ofSections l).get? ref = some s →
      (l.filter fun s => s.key.course = ref.course)[ref.index]? = some s := by
    intro ref s hs
    rwa [get?, groups_ofSections] at hs
  have filed : ∀ {ref s}, (ofSections l).get? ref = some s → ref.course = s.key.course := by
    intro ref s hs
    have := (List.mem_filter.1 (List.mem_of_getElem? (hget hs))).2
    exact (by simpa using this : s.key.course = ref.course).symm
  refine ⟨filed, fun {ref ref' s s'} hs hs' hkey => ?_⟩
  have hcourse : ref'.course = ref.course := by rw [filed hs, filed hs', hkey]
  have hnodup : ((l.filter fun s => s.key.course = ref.course).map (·.key)).Nodup :=
    h.sublist (List.filter_sublist.map _)
  have hi := hget hs
  have hi' := hget hs'
  rw [hcourse] at hi'
  have hindex : ref.index = ref'.index := by
    have e : ((l.filter fun s => s.key.course = ref.course).map (·.key))[ref.index]? =
        ((l.filter fun s => s.key.course = ref.course).map (·.key))[ref'.index]? := by
      rw [List.getElem?_map, List.getElem?_map, hi, hi', Option.map_some, Option.map_some, hkey]
    refine (List.getElem?_inj ?_ hnodup).1 e
    rw [List.length_map]
    exact (List.getElem?_eq_some_iff.1 hi).1
  cases ref
  cases ref'
  simp_all

/-! ## Canonical catalogs -/

/-- A sound catalog that lists the groups of a course in ascending order, and only courses that have
groups.  It is determined by what is found under each key. -/
structure Canonical (c : Catalog) : Prop extends c.Sound where
  /-- A listed course has a group. -/
  nonempty : ∀ course, c.courses.get? course ≠ some []
  /-- The groups of a course are in ascending order. -/
  ascending : ∀ course, ((c.groups course).map (·.key)).Pairwise fun j k => rank j < rank k

namespace Canonical

protected lemma set (hc : c.Canonical) (h : c.get? ref = some s) (hk : s'.key = s.key) :
    (c.set ref s').Canonical := by
  refine ⟨hc.toSound.set h hk, fun course => ?_, fun course => ?_⟩
  · unfold Catalog.set
    split
    · exact hc.nonempty course
    · rename_i groups hgroups
      show (c.courses.insert ref.course (groups.set ref.index s')).get? course ≠ some []
      rw [OrderedMap.get?_insert]
      split_ifs
      · intro hnil
        rw [Option.some.injEq, List.set_eq_nil_iff] at hnil
        exact hc.nonempty ref.course (hnil ▸ hgroups)
      · exact hc.nonempty course
  · rw [groups_set]
    split_ifs with hcourse
    · -- the keys are those of before
      subst hcourse
      have hkey : ((c.groups ref.course).map (·.key))[ref.index]? = some s'.key := by
        rw [List.getElem?_map, hk]
        exact congrArg _ h
      obtain ⟨hlt, hget⟩ := List.getElem?_eq_some_iff.1 hkey
      rw [List.map_set, ← hget, List.set_getElem_self]
      exact hc.ascending ref.course
    · exact hc.ascending course

end Canonical

/-- The groups of a course are the sections that are found under its keys. -/
lemma Sound.mem_groups (hc : c.Sound) {course : CourseId} :
    s ∈ c.groups course ↔ (c.lookup s.key).map (·.2) = some s ∧ s.key.course = course := by
  constructor
  · intro hs
    obtain ⟨i, hi⟩ := List.mem_iff_getElem?.1 hs
    have hget : c.get? ⟨course, i⟩ = some s := hi
    exact ⟨by rw [hc.lookup_key hget]; rfl, (hc.filed hget).symm⟩
  · rintro ⟨hfound, rfl⟩
    rw [map_snd_lookup] at hfound
    exact List.mem_of_find?_eq_some hfound

lemma courses_eq_of_nonempty (h : ∀ course, c.courses.get? course ≠ some []) (course : CourseId) :
    c.courses.get? course = if c.groups course = [] then none else some (c.groups course) := by
  unfold groups
  cases hget : c.courses.get? course with
  | none => simp
  | some l =>
    have hl : l ≠ [] := fun hnil => h course (hnil ▸ hget)
    simp [hl]

/-- **Canonical catalogs in which the same is found under every key are equal.** -/
theorem Canonical.ext {d : Catalog} (hc : c.Canonical) (hd : d.Canonical)
    (h : ∀ key, (c.lookup key).map (·.2) = (d.lookup key).map (·.2)) : c = d := by
  have hgroups : ∀ course, c.groups course = d.groups course := by
    intro course
    have hascending : ∀ {c : Catalog}, c.Canonical →
        (c.groups course).Pairwise fun s t => rank s.key < rank t.key := by
      intro c hc
      have hkeys := hc.ascending course
      rwa [List.pairwise_map] at hkeys
    refine eq_of_ascending (hascending hc) (hascending hd) fun s => ?_
    rw [hc.mem_groups, hd.mem_groups, h]
  have hcourses : c.courses = d.courses := by
    refine OrderedMap.ext_get? fun course => ?_
    rw [courses_eq_of_nonempty hc.nonempty, courses_eq_of_nonempty hd.nonempty, hgroups]
  cases c
  cases d
  exact congrArg Catalog.mk hcourses

lemma groups_of_mem_entries {entry : CourseId × List Section} (h : entry ∈ c.courses.entries) :
    c.groups entry.1 = entry.2 := by
  rw [groups, OrderedMap.get?_eq_some_iff.2 h]
  rfl

lemma sections_eq_flatMap (c : Catalog) : c.sections = c.courses.entries.flatMap (·.2) :=
  rfl

/-- The sections of a sound catalog are those that are found under their keys. -/
lemma Sound.mem_sections (hc : c.Sound) :
    s ∈ c.sections ↔ (c.lookup s.key).map (·.2) = some s := by
  rw [sections_eq_flatMap, List.mem_flatMap]
  constructor
  · rintro ⟨entry, hentry, hs⟩
    rw [← groups_of_mem_entries hentry] at hs
    exact (hc.mem_groups.1 hs).1
  · intro hfound
    have hs : s ∈ c.groups s.key.course := hc.mem_groups.2 ⟨hfound, rfl⟩
    cases hget : c.courses.get? s.key.course with
    | none =>
      rw [groups, hget] at hs
      cases hs
    | some l =>
      rw [groups, hget] at hs
      exact ⟨(s.key.course, l), OrderedMap.get?_eq_some_iff.1 hget, hs⟩

/-- No two sections of a canonical catalog have one key. -/
lemma Canonical.nodup_keys (hc : c.Canonical) : (c.sections.map (·.key)).Nodup := by
  rw [List.Nodup, List.pairwise_map, sections_eq_flatMap, List.pairwise_flatMap]
  constructor
  · intro entry hentry
    have hascending := hc.ascending entry.1
    rw [groups_of_mem_entries hentry] at hascending
    exact List.pairwise_map.1 (nodup_of_ascending hascending)
  · -- sections of different entries have different courses
    refine (List.Pairwise.and_mem.1 c.courses.ascending).imp ?_
    rintro entry entry' ⟨hentry, hentry', hlt⟩ s hs t ht heq
    rw [← groups_of_mem_entries hentry] at hs
    rw [← groups_of_mem_entries hentry'] at ht
    have hcourse : entry.1 = entry'.1 := by
      rw [← (hc.mem_groups.1 hs).2, ← (hc.mem_groups.1 ht).2, heq]
    rw [hcourse] at hlt
    exact Int.lt_irrefl _ hlt

/-- Adding sections one by one never lists a course without groups. -/
lemma nonempty_ofSections (l : List Section) (course : CourseId) :
    (ofSections l).courses.get? course ≠ some [] := by
  have hadd : ∀ (l : List Section) (c : Catalog), c.courses.get? course ≠ some [] →
      (l.foldl add c).courses.get? course ≠ some [] := by
    intro l
    induction l with
    | nil => exact fun c hc => hc
    | cons s rest ih =>
      intro c hc
      apply ih
      show (c.courses.insert s.key.course (c.groups s.key.course ++ [s])).get? course ≠ some []
      rw [OrderedMap.get?_insert]
      split_ifs
      · simp
      · exact hc
  exact hadd l empty nofun

/-- Sections that are listed in ascending order make a canonical catalog. -/
lemma canonical_ofSections {l : List Section}
    (h : (l.map (·.key)).Pairwise fun j k => rank j < rank k) : (ofSections l).Canonical := by
  refine ⟨sound_ofSections (nodup_of_ascending h), nonempty_ofSections l, fun course => ?_⟩
  rw [groups_ofSections]
  exact h.sublist (List.filter_sublist.map _)

/-! ## Catalogs of keyed sections -/

/-- Sections listed under their keys are found under them in the catalog. -/
lemma lookup_ofSections_values {m : OrderedMap SectionKey Section}
    (hm : ∀ {key s}, m.get? key = some s → s.key = key) (key : SectionKey) :
    ((ofSections m.values).lookup key).map (·.2) = m.get? key := by
  rw [lookup_ofSections]
  cases hs : m.get? key with
  | none =>
    rw [List.find?_eq_none]
    rintro s hmem hkey
    obtain ⟨⟨key', s⟩, hentry, rfl⟩ := List.mem_map.1 hmem
    have hget := OrderedMap.get?_eq_some_iff.2 hentry
    rw [decide_eq_true_eq, hm hget] at hkey
    rw [hkey, hs] at hget
    cases hget
  | some s =>
    have hmem : s ∈ m.values :=
      List.mem_map.2 ⟨(key, s), OrderedMap.get?_eq_some_iff.1 hs, rfl⟩
    cases hfind : m.values.find? fun s => s.key = key with
    | none => exact absurd (by simpa using hm hs) (List.find?_eq_none.1 hfind s hmem)
    | some t =>
      obtain ⟨⟨key', t⟩, hentry, rfl⟩ := List.mem_map.1 (List.mem_of_find?_eq_some hfind)
      have hget := OrderedMap.get?_eq_some_iff.2 hentry
      have hkey : t.key = key := by simpa using List.find?_some hfind
      rw [hm hget] at hkey
      rw [← hs, ← hkey, hget]

lemma canonical_ofSections_values {m : OrderedMap SectionKey Section}
    (hm : ∀ {key s}, m.get? key = some s → s.key = key) : (ofSections m.values).Canonical := by
  refine canonical_ofSections ?_
  have hkeys : m.values.map (·.key) = m.entries.map (·.1) := by
    rw [OrderedMap.values, List.map_map]
    refine List.map_congr_left fun e he => ?_
    exact hm (OrderedMap.get?_eq_some_iff.2 he)
  rw [hkeys, List.pairwise_map]
  exact m.ascending

end Catalog

end CourseRegistration
