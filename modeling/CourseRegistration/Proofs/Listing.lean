import CourseRegistration.Proofs.Catalog
import CourseRegistration.Proofs.Run
import Mathlib.Algebra.GroupWithZero.Nat
import Mathlib.Data.List.Nodup
import Mathlib.Logic.Function.Basic

/-!
# The catalog as a list

A catalog takes the listed sections apart by course and is asked by key, by course and by
department.  All its answers can be read off the list itself, if each section is listed with its
reference.  `Catalog.Lists c l` says that `l` is such a list: course by course it has the groups
that the catalog has, in their order.  Everything else follows from this, and from nothing about
the order in which courses are visited (`Lists.behaves`).

A department's sections are put in order by a key that two of them may share.  What comes out is
one fixed list all the same: a stable sort is determined by what is sorted (`StableSort.unique`),
and sections with one key are groups of one course, whose order does not depend on that of the
courses (`Lists.filter_withRefs`).

References do not change, so a change of one section is the change of one entry of the list
(`Lists.revise`), whatever way the reference was come by.  A running office changes sections in no
other way (`Office.run_behaves`).
-/

namespace CourseRegistration

/-! ## Stable sorting -/

/-- `sorted` is the list `l` in ascending order of `f`, where elements of equal rank stay in the
order in which they were. -/
structure StableSort {α : Type} (f : α → Int) (l sorted : List α) : Prop where
  perm : sorted.Perm l
  ascending : sorted.Pairwise fun a b => f a ≤ f b
  stable : ∀ k, (sorted.filter fun a => f a = k) = l.filter fun a => f a = k

namespace StableSort

variable {α : Type} {f : α → Int} {l l' sorted sorted' : List α}

private lemma mem_of_filter_eq (h : ∀ k, (l.filter fun a => f a = k) = l'.filter fun a => f a = k)
    {a : α} (ha : a ∈ l) : a ∈ l' := by
  have hmem : a ∈ l.filter fun b => f b = f a := List.mem_filter.2 ⟨ha, decide_eq_true rfl⟩
  rw [h] at hmem
  exact List.mem_of_mem_filter hmem

private lemma head_le {a b : α} (hl : (b :: l).Pairwise fun a b => f a ≤ f b) (ha : a ∈ b :: l) :
    f b ≤ f a := by
  rcases List.mem_cons.1 ha with rfl | ha
  · exact Int.le_refl _
  · exact (List.pairwise_cons.1 hl).1 a ha

/-- Ascending lists that agree on the elements of each rank are equal. -/
lemma eq_of_filter_eq (hl : l.Pairwise fun a b => f a ≤ f b)
    (hl' : l'.Pairwise fun a b => f a ≤ f b)
    (h : ∀ k, (l.filter fun a => f a = k) = l'.filter fun a => f a = k) : l = l' := by
  have h' := fun k => (h k).symm
  induction l generalizing l' with
  | nil =>
    cases l' with
    | nil => rfl
    | cons b rest => exact absurd (mem_of_filter_eq h' List.mem_cons_self) List.not_mem_nil
  | cons a rest ih =>
    cases l' with
    | nil => exact absurd (mem_of_filter_eq h List.mem_cons_self) List.not_mem_nil
    | cons b rest' =>
      -- neither head has a smaller rank than the other, so they are the first of that rank
      have hrank : f a = f b := Int.le_antisymm
        (head_le hl (mem_of_filter_eq h' List.mem_cons_self))
        (head_le hl' (mem_of_filter_eq h List.mem_cons_self))
      have hhead := h (f a)
      rw [List.filter_cons, List.filter_cons, if_pos (decide_eq_true rfl),
        if_pos (decide_eq_true hrank.symm), List.cons.injEq] at hhead
      obtain ⟨rfl, -⟩ := hhead
      have htail : ∀ k, (rest.filter fun c => f c = k) = rest'.filter fun c => f c = k := by
        intro k
        have hk := h k
        rw [List.filter_cons, List.filter_cons] at hk
        split_ifs at hk
        · exact (List.cons.inj hk).2
        · exact hk
      rw [ih hl.of_cons hl'.of_cons htail fun k => (htail k).symm]

/-- **There is only one stable sort of a list.** -/
theorem unique (h : StableSort f l sorted) (h' : StableSort f l sorted') : sorted = sorted' :=
  eq_of_filter_eq h.ascending h'.ascending fun k => (h.stable k).trans (h'.stable k).symm

lemma mergeSort (f : α → Int) (l : List α) :
    StableSort f l (l.mergeSort fun a b => f a ≤ f b) := by
  have trans : ∀ a b c : α, decide (f a ≤ f b) = true → decide (f b ≤ f c) = true →
      decide (f a ≤ f c) = true := by
    intro a b c hab hbc
    rw [decide_eq_true_eq] at *
    exact Int.le_trans hab hbc
  have total : ∀ a b : α, (decide (f a ≤ f b) || decide (f b ≤ f a)) = true := by
    intro a b
    rw [Bool.or_eq_true, decide_eq_true_eq, decide_eq_true_eq]
    exact Int.le_total _ _
  have hperm := List.mergeSort_perm l fun a b => decide (f a ≤ f b)
  refine ⟨hperm, (List.pairwise_mergeSort trans total l).imp of_decide_eq_true, fun k => ?_⟩
  -- elements of one rank are in order already, and such a sublist is kept
  have hequal : (l.filter fun a => f a = k).Pairwise fun a b => decide (f a ≤ f b) = true := by
    refine List.pairwise_of_forall_mem_list fun a ha b hb => decide_eq_true ?_
    exact Int.le_of_eq ((of_decide_eq_true (List.mem_filter.1 ha).2).trans
      (of_decide_eq_true (List.mem_filter.1 hb).2).symm)
  have hsub := (List.sublist_mergeSort trans total hequal List.filter_sublist).filter
    fun a => f a = k
  rw [List.filter_filter] at hsub
  simp only [Bool.and_self] at hsub
  exact (hsub.eq_of_length (hperm.filter _).length_eq.symm).symm

end StableSort

namespace Catalog

/-! ## Sections with their references -/

/-- The groups of a course, each with its reference. -/
def placed (course : CourseId) (groups : List Section) : List (Ref × Section) :=
  groups.zipIdx.map fun (s, i) => (⟨course, i⟩, s)

/-- The sections of all courses, each with its reference, where the courses come in the given
order. -/
def withRefs (order : List (CourseId × List Section)) : List (Ref × Section) :=
  order.flatMap fun (course, groups) => placed course groups

/-- A department's listing, each section with its reference, where the courses are visited in the
given order. -/
def departmentRefs (order : List (CourseId × List Section)) (department : DepartmentId) :
    List (Ref × Section) :=
  ((withRefs order).filter fun p => p.2.department = department).mergeSort fun p q => byKey p.2 q.2

/-- Course by course, the list has the groups of the catalog in their order. -/
def Lists (c : Catalog) (l : List (Ref × Section)) : Prop :=
  ∀ course, placed course (c.groups course) = l.filter fun p => p.2.key.course = course

/-- Whatever way sections of the catalog are reached, they are those of the list, each with its own
reference; and the order in which courses are visited makes no difference. -/
structure Behaves (c : Catalog) (l : List (Ref × Section)) : Prop where
  /-- Different sections have different references. -/
  nodup : (l.map (·.1)).Nodup
  get? : ∀ ref s, c.get? ref = some s ↔ (ref, s) ∈ l
  /-- A key finds the first section that has it. -/
  lookup : ∀ key, c.lookup key = l.find? fun p => p.2.key = key
  /-- The groups of a course come in the order of the list. -/
  groups : ∀ course, placed course (c.groups course) = l.filter fun p => p.2.key.course = course
  /-- A department's sections come by course and group, and else in the order of the list. -/
  department : ∀ order : List (CourseId × List Section), order.Perm c.courses.entries →
    ∀ department,
    StableSort (fun p => rank p.2.key) (l.filter fun p => p.2.department = department)
      (departmentRefs order department) ∧
    (departmentRefs order department).map (·.2) = c.inDepartment department
  size : c.size = l.length ∧
    ∀ order : List (CourseId × List Section), order.Perm c.courses.entries →
      (order.map fun entry => entry.2.length).sum = l.length

variable {c : Catalog} {l : List (Ref × Section)} {ref : Ref} {s : Section} {course : CourseId}
  {groups : List Section} {order : List (CourseId × List Section)}

lemma mem_placed : (ref, s) ∈ placed course groups ↔
    ref.course = course ∧ groups[ref.index]? = some s := by
  simp only [placed, List.mem_map, Prod.exists, List.mem_zipIdx_iff_getElem?, Prod.mk.injEq]
  constructor
  · rintro ⟨s, i, hs, rfl, rfl⟩
    exact ⟨rfl, hs⟩
  · rintro ⟨rfl, hs⟩
    exact ⟨s, ref.index, hs, rfl, rfl⟩

lemma map_snd_placed (course : CourseId) (groups : List Section) :
    (placed course groups).map (·.2) = groups := by
  rw [placed, List.map_map]
  exact List.zipIdx_map_fst 0 groups

lemma nodup_placed (course : CourseId) (groups : List Section) :
    ((placed course groups).map (·.1)).Nodup := by
  refine List.Nodup.of_map Ref.index ?_
  rw [List.map_map, placed, List.map_map]
  show (groups.zipIdx.map Prod.snd).Nodup
  rw [List.zipIdx_map_snd]
  exact List.nodup_range'

private lemma find?_zipIdx {α : Type} (p : α → Bool) (l : List α) (n : Nat) :
    (l.zipIdx n).find? (fun e => p e.1) =
      (l.findIdx? p).bind fun i => l[i]?.map fun a => (a, n + i) := by
  induction l generalizing n with
  | nil => rfl
  | cons a rest ih =>
    rw [List.zipIdx_cons, List.find?_cons, List.findIdx?_cons, ih]
    cases p a with
    | true => rfl
    | false =>
      cases rest.findIdx? p with
      | none => rfl
      | some i => simp [Nat.add_comm, Nat.add_left_comm]

/-- The first section of a course that passes a test is found at the first position that does. -/
lemma find?_placed (p : Section → Bool) :
    (placed course groups).find? (fun e => p e.2) =
      (groups.findIdx? p).bind fun i => groups[i]?.map fun s => (⟨course, i⟩, s) := by
  rw [placed, List.find?_map]
  show ((groups.zipIdx 0).find? fun e => p e.1).map _ = _
  rw [find?_zipIdx]
  cases groups.findIdx? p with
  | none => rfl
  | some i =>
    rw [Option.bind_some, Option.bind_some, Option.map_map, Nat.zero_add]
    rfl

/-- Only one entry has a given key. -/
private lemma flatMap_of_key {κ ν α : Type} [DecidableEq κ] (m : List α) (k : κ) {l : List (κ × ν)}
    (hl : (l.map (·.1)).Nodup) :
    (l.flatMap fun e => if e.1 = k then m else []) = if k ∈ l.map (·.1) then m else [] := by
  induction l with
  | nil => rfl
  | cons e rest ih =>
    rw [List.map_cons, List.nodup_cons] at hl
    rw [List.flatMap_cons, ih hl.2, List.map_cons]
    by_cases hk : e.1 = k
    · have hrest : k ∉ rest.map (·.1) := hk ▸ hl.1
      rw [if_pos hk, if_neg hrest, List.append_nil, if_pos (List.mem_cons.2 (.inl hk.symm))]
    · rw [if_neg hk, List.nil_append]
      congr 1
      rw [List.mem_cons, eq_iff_iff, or_iff_right (Ne.symm hk)]

namespace Lists

section

variable (h : c.Lists l)
include h

lemma mem_iff : (ref, s) ∈ l ↔ c.get? ref = some s := by
  constructor
  · intro hmem
    have hfiltered : (ref, s) ∈ l.filter fun p => p.2.key.course = s.key.course :=
      List.mem_filter.2 ⟨hmem, decide_eq_true rfl⟩
    rw [← h, mem_placed] at hfiltered
    rw [get?, hfiltered.1]
    exact hfiltered.2
  · intro hget
    have hplaced : (ref, s) ∈ placed ref.course (c.groups ref.course) :=
      mem_placed.2 ⟨rfl, hget⟩
    rw [h] at hplaced
    exact List.mem_of_mem_filter hplaced

/-- A section is filed under its own course. -/
lemma course_of_mem {p : Ref × Section} (hp : p ∈ l) : p.2.key.course = p.1.course := by
  have hfiltered : (p.1, p.2) ∈ l.filter fun q => q.2.key.course = p.2.key.course :=
    List.mem_filter.2 ⟨hp, decide_eq_true rfl⟩
  rw [← h, mem_placed] at hfiltered
  exact hfiltered.1.symm

lemma nodup : (l.map (·.1)).Nodup := by
  rw [List.Nodup, List.pairwise_map, List.pairwise_iff_forall_sublist]
  intro p q hsub heq
  have hp : p ∈ l := hsub.subset List.mem_cons_self
  have hq : q ∈ l := hsub.subset (List.mem_cons_of_mem _ List.mem_cons_self)
  have hcourse : q.2.key.course = p.2.key.course := by
    rw [h.course_of_mem hp, h.course_of_mem hq, heq]
  -- both are groups of one course, and there no reference comes twice
  have hgroups := hsub.filter fun e => e.2.key.course = p.2.key.course
  rw [← h, List.filter_cons, List.filter_cons, List.filter_nil, if_pos (decide_eq_true rfl),
    if_pos (decide_eq_true hcourse)] at hgroups
  have hpair := (nodup_placed p.2.key.course (c.groups p.2.key.course)).sublist (hgroups.map (·.1))
  exact (List.nodup_cons.1 hpair).1 (List.mem_singleton.2 heq)

lemma lookup (key : SectionKey) : c.lookup key = l.find? fun p => p.2.key = key := by
  have hkey : (fun p : Ref × Section => decide (p.2.key = key)) = fun p =>
      decide (decide (p.2.key.course = key.course) = true ∧
        decide (p.2.key.group = key.group) = true) := by
    funext p
    obtain ⟨-, ⟨⟨course, group⟩, -⟩⟩ := p
    cases key
    simp
  rw [hkey, ← List.find?_filter, ← h,
    find?_placed (p := fun s => decide (s.key.group = key.group)), Catalog.lookup, find?]
  cases (c.groups key.course).findIdx? fun s => decide (s.key.group = key.group) <;> rfl

variable (horder : order.Perm c.courses.entries)
include horder

/-- Whatever the order of the courses, the groups of a course come in their own order. -/
lemma filter_withRefs (course : CourseId) :
    (withRefs order).filter (fun p => p.2.key.course = course) =
      l.filter fun p => p.2.key.course = course := by
  have hnodup : (order.map (·.1)).Nodup :=
    (horder.map (·.1)).nodup_iff.2 c.courses.nodup_keys
  have hentry : ∀ e ∈ order, (placed e.1 e.2).filter (fun p => p.2.key.course = course) =
      if e.1 = course then l.filter fun p => p.2.key.course = course else [] := by
    intro e he
    rw [← groups_of_mem_entries (horder.mem_iff.1 he), h, List.filter_filter]
    split_ifs with hcourse
    · subst hcourse
      simp only [Bool.and_self]
    · refine List.filter_eq_nil_iff.2 fun p _ hp => hcourse ?_
      rw [Bool.and_eq_true, decide_eq_true_eq, decide_eq_true_eq] at hp
      exact hp.2.symm.trans hp.1
  rw [withRefs, List.filter_flatMap]
  refine (List.flatMap_congr hentry).trans ((flatMap_of_key _ course hnodup).trans ?_)
  split_ifs with hmem
  · rfl
  · -- a course that is not in the catalog has no sections
    have hnone : c.courses.get? course = none := by
      rw [Option.eq_none_iff_forall_ne_some]
      intro groups hgroups
      have he := horder.mem_iff.2 (OrderedMap.get?_eq_some_iff.1 hgroups)
      exact hmem (List.mem_map.2 ⟨(course, groups), he, rfl⟩)
    rw [← h, groups, hnone]
    rfl

/-- The sections of the catalog are those of the list. -/
lemma withRefs_perm : (withRefs order).Perm l := by
  rw [List.perm_iff_count]
  intro p
  have hfilter : ∀ m : List (Ref × Section),
      (m.filter fun q => q.2.key.course = p.2.key.course).count p = m.count p := fun m =>
    List.count_filter (decide_eq_true rfl)
  have hcount := congrArg (List.count p) (h.filter_withRefs horder p.2.key.course)
  rwa [hfilter, hfilter] at hcount

/-- Sections whose keys have one rank are groups of one course, so they come in their own order. -/
lemma filter_rank (k : Int) : (withRefs order).filter (fun p => rank p.2.key = k) =
    l.filter fun p => rank p.2.key = k := by
  by_cases hk : ∃ key : SectionKey, rank key = k
  · obtain ⟨key, rfl⟩ := hk
    have hcourse : ∀ m : List (Ref × Section), (m.filter fun p => rank p.2.key = rank key) =
        (m.filter fun p => p.2.key.course = key.course).filter
          fun p => rank p.2.key = rank key := by
      intro m
      rw [List.filter_filter]
      refine List.filter_congr fun p _ => ?_
      rw [Bool.eq_iff_iff, Bool.and_eq_true, decide_eq_true_eq, decide_eq_true_eq, rank_eq_iff]
      exact ⟨fun hp => ⟨hp, hp ▸ rfl⟩, fun hp => hp.1⟩
    rw [hcourse, h.filter_withRefs horder, ← hcourse]
  · have hnone : ∀ m : List (Ref × Section), (m.filter fun p => rank p.2.key = k) = [] := fun m =>
      List.filter_eq_nil_iff.2 fun p _ hp => hk ⟨p.2.key, of_decide_eq_true hp⟩
    rw [hnone, hnone]

/-- **A department's listing is the stable sort of its sections in the list.** -/
theorem stableSort (department : DepartmentId) :
    StableSort (fun p => rank p.2.key) (l.filter fun p => p.2.department = department)
      (departmentRefs order department) := by
  have hsorted := StableSort.mergeSort (fun p : Ref × Section => rank p.2.key)
    ((withRefs order).filter fun p => p.2.department = department)
  refine ⟨hsorted.perm.trans ((h.withRefs_perm horder).filter _), hsorted.ascending, fun k => ?_⟩
  have hcomm : ∀ m : List (Ref × Section),
      ((m.filter fun p => p.2.department = department).filter fun p => rank p.2.key = k) =
        (m.filter fun p => rank p.2.key = k).filter fun p => p.2.department = department := by
    intro m
    rw [List.filter_filter, List.filter_filter]
    exact List.filter_congr fun p _ => Bool.and_comm _ _
  rw [hcomm, ← h.filter_rank horder, ← hcomm]
  exact hsorted.stable k

end

end Lists

/-- The listing of a department is its listing with references, without the references. -/
lemma map_snd_departmentRefs (c : Catalog) (department : DepartmentId) :
    (departmentRefs c.courses.entries department).map (·.2) = c.inDepartment department := by
  have hall : (withRefs c.courses.entries).map (·.2) = c.sections := by
    rw [withRefs, List.map_flatMap]
    exact List.flatMap_congr fun e _ => map_snd_placed e.1 e.2
  have hmap := List.map_mergeSort (r := fun p q : Ref × Section => byKey p.2 q.2) (s := byKey)
    (f := Prod.snd)
    (l := (withRefs c.courses.entries).filter fun p => p.2.department = department)
    fun _ _ _ _ => rfl
  rw [inDepartment, ← hall, List.filter_map]
  exact hmap

lemma length_withRefs (order : List (CourseId × List Section)) :
    (withRefs order).length = (order.map fun e => e.2.length).sum := by
  rw [withRefs, List.length_flatMap]
  refine congrArg List.sum (List.map_congr_left fun e _ => ?_)
  show (placed e.1 e.2).length = _
  rw [placed, List.length_map, List.length_zipIdx]

/-- **A catalog behaves as the list of its sections.** -/
theorem Lists.behaves (h : c.Lists l) : c.Behaves l where
  nodup := h.nodup
  get? ref s := h.mem_iff.symm
  lookup := h.lookup
  groups := h
  department order horder department := by
    have hsorted := h.stableSort horder department
    refine ⟨hsorted, ?_⟩
    rw [hsorted.unique (h.stableSort (List.Perm.refl _) department)]
    exact c.map_snd_departmentRefs department
  size := by
    have hlength : ∀ order : List (CourseId × List Section), order.Perm c.courses.entries →
        (order.map fun entry => entry.2.length).sum = l.length := by
      intro order horder
      rw [← length_withRefs, (h.withRefs_perm horder).length_eq]
    refine ⟨?_, hlength⟩
    rw [size, sections_eq_flatMap, List.length_flatMap]
    exact hlength _ (List.Perm.refl _)

/-! ## Changes -/

/-- A change of a section.  Only its seats and the time of its exam ever change. -/
structure Revision where
  ref : Ref
  seats : Seats
  examTime : Int64

namespace Revision

/-- The section after the change. -/
def apply (v : Revision) (s : Section) : Section :=
  { s with seats := v.seats, examTime := v.examTime }

/-- The entry of a list after the change, which is that of the section at one reference. -/
def entry (v : Revision) (p : Ref × Section) : Ref × Section :=
  if p.1 = v.ref then (p.1, v.apply p.2) else p

end Revision

/-- The catalog after a change of a section. -/
def revise (c : Catalog) (v : Revision) : Catalog :=
  match c.get? v.ref with
  | none => c
  | some s => c.set v.ref (v.apply s)

/-- The catalog after changes of sections, one after the other. -/
def reviseAll (c : Catalog) (revisions : List Revision) : Catalog :=
  revisions.foldl revise c

/-- The list after changes of its sections, one after the other. -/
def reviseEntries (l : List (Ref × Section)) (revisions : List Revision) : List (Ref × Section) :=
  revisions.foldl (fun l v => l.map v.entry) l

lemma reviseAll_append (c : Catalog) (revisions later : List Revision) :
    c.reviseAll (revisions ++ later) = (c.reviseAll revisions).reviseAll later :=
  List.foldl_append

/-- Other seats in a section are a change of it. -/
lemma set_withSeats (found : c.get? ref = some s) (seats : Seats) :
    c.set ref (s.withSeats seats) = c.revise ⟨ref, seats, s.examTime⟩ := by
  rw [revise, found]
  rfl

lemma get?_revise (c : Catalog) (v : Revision) (ref : Ref) :
    (c.revise v).get? ref = (c.get? ref).map fun s => if ref = v.ref then v.apply s else s := by
  unfold revise
  split
  · rename_i hnone
    by_cases href : ref = v.ref
    · rw [href, hnone]
      rfl
    · simp only [if_neg href, Option.map_id']
  · rename_i s hs
    rw [get?_set hs]
    split_ifs with href
    · rw [href, hs]
      rfl
    · rw [Option.map_id']

lemma getElem?_placed (c : Catalog) (course : CourseId) (i : Nat) :
    (placed course (c.groups course))[i]? =
      (c.get? ⟨course, i⟩).map fun s => (⟨course, i⟩, s) := by
  rw [placed, List.getElem?_map, List.getElem?_zipIdx, Option.map_map, Nat.zero_add, get?]
  rfl

/-- **A change of a section is the change of its one entry.** -/
theorem Lists.revise (h : c.Lists l) (v : Revision) : (c.revise v).Lists (l.map v.entry) := by
  intro course
  have hkey : ((fun p : Ref × Section => decide (p.2.key.course = course)) ∘ v.entry) =
      fun p => decide (p.2.key.course = course) := by
    funext p
    simp only [Function.comp_apply, Revision.entry]
    split_ifs <;> rfl
  rw [List.filter_map, hkey, ← h]
  refine List.ext_getElem? fun i => ?_
  rw [getElem?_placed, get?_revise, List.getElem?_map, getElem?_placed]
  cases c.get? ⟨course, i⟩ with
  | none => rfl
  | some s =>
    simp only [Option.map_some, Revision.entry]
    split_ifs <;> rfl

/-! ## Loading -/

/-- Listed sections with the references that they get, where `n` groups of each course are filed
already. -/
def numbered (n : CourseId → Nat) : List Section → List (Ref × Section)
  | [] => []
  | s :: rest =>
    (⟨s.key.course, n s.key.course⟩, s) ::
      numbered (Function.update n s.key.course (n s.key.course + 1)) rest

/-- Listed sections with the references that they get in a new catalog. -/
def loaded (sections : List Section) : List (Ref × Section) :=
  numbered (fun _ => 0) sections

lemma map_snd_numbered (n : CourseId → Nat) (sections : List Section) :
    (numbered n sections).map (·.2) = sections := by
  induction sections generalizing n with
  | nil => rfl
  | cons s rest ih => rw [numbered, List.map_cons, ih]

/-- The sections of a course are numbered one after the other. -/
lemma filter_numbered (n : CourseId → Nat) (sections : List Section) (course : CourseId) :
    ((numbered n sections).filter fun p => p.2.key.course = course) =
      ((sections.filter fun s => s.key.course = course).zipIdx (n course)).map
        fun (s, i) => (⟨course, i⟩, s) := by
  induction sections generalizing n with
  | nil => rfl
  | cons s rest ih =>
    rw [numbered, List.filter_cons, List.filter_cons, ih]
    by_cases hcourse : s.key.course = course
    · subst hcourse
      rw [if_pos (decide_eq_true rfl), if_pos (decide_eq_true rfl), List.zipIdx_cons,
        Function.update_self]
      rfl
    · rw [if_neg (by simpa using hcourse), if_neg (by simpa using hcourse),
        Function.update_of_ne (Ne.symm hcourse)]

lemma lists_ofSections (sections : List Section) :
    (ofSections sections).Lists (loaded sections) := by
  intro course
  rw [groups_ofSections, loaded, filter_numbered, placed]

/-- A list of sections stays one under any changes. -/
lemma Lists.revise_all (h : c.Lists l) (revisions : List Revision) :
    (c.reviseAll revisions).Lists (reviseEntries l revisions) := by
  induction revisions generalizing c l with
  | nil => exact h
  | cons v rest ih => exact ih (h.revise v)

/-- **A catalog behaves as the list that it was loaded from.**  The sections may have any keys, also
the same ones, and the courses may be visited in any order.  And so it goes on: after any changes of
sections, the catalog behaves as the list in which exactly the entries of these sections have been
changed. -/
theorem revised_behaves (sections : List Section) (revisions : List Revision) :
    (loaded sections).map (·.2) = sections ∧
    ((ofSections sections).reviseAll revisions).Behaves
      (reviseEntries (loaded sections) revisions) :=
  ⟨map_snd_numbered _ sections, ((lists_ofSections sections).revise_all revisions).behaves⟩

end Catalog

/-! ## Runs -/

namespace Registry

variable {r r' : Registry} {now : Instant} {request : Request} {records : List Journal.Record}

/-- All that a request does to the catalog is to change sections. -/
lemma Effect.revisions (h : r.Effect now request records r') :
    ∃ revisions, r'.catalog = r.catalog.reviseAll revisions := by
  have one : ∀ {key ref s} (seats : Seats), r.catalog.lookup key = some (ref, s) →
      ∃ revisions, r.catalog.set ref (s.withSeats seats) = r.catalog.reviseAll revisions :=
    fun {_ ref s} seats found => ⟨[⟨ref, seats, s.examTime⟩],
      Catalog.set_withSeats (Catalog.get?_of_lookup found) seats⟩
  cases h with
  | nothing => exact ⟨[], rfl⟩
  | @switchGroup id key student group ref source ref' destination _ place _ _ _ _ other found
      found' =>
    -- sections of different groups are at different references
    have hne : ref' ≠ ref := by
      rintro rfl
      have hkeys := congrArg SectionKey.group (Catalog.key_eq_of_lookup found found')
      exact other hkeys.symm
    have hafter := (Catalog.get?_set (Catalog.get?_of_lookup found)
      (source.withSeats (source.seats.vacate id)) ref').trans
        ((if_neg hne).trans (Catalog.get?_of_lookup found'))
    have hfirst := Catalog.set_withSeats (Catalog.get?_of_lookup found) (source.seats.vacate id)
    have hsecond := Catalog.set_withSeats hafter (destination.seats.give id place)
    refine ⟨[⟨ref, source.seats.vacate id, source.examTime⟩,
      ⟨ref', destination.seats.give id place, destination.examTime⟩], hsecond.trans ?_⟩
    rw [hfirst]
    rfl
  | @raiseAndEnroll id key student ref wanted _ found =>
    exact one (s := wanted) (wanted.grown.seats.give id .registered) found
  | enroll _ _ found | drop _ _ _ _ found | staffEnroll _ found | raise _ found
  | staffDrop _ _ found | resize found => exact one _ found

lemma setExamTime_revisions (r : Registry) (ref : Catalog.Ref) (time : Int64) :
    ∃ revisions, (r.setExamTime ref time).catalog = r.catalog.reviseAll revisions := by
  unfold setExamTime
  cases found : r.catalog.get? ref with
  | none => exact ⟨[], rfl⟩
  | some s =>
    refine ⟨[⟨ref, s.seats, time⟩], ?_⟩
    show r.catalog.set ref { s with examTime := time } = r.catalog.revise _
    rw [Catalog.revise, found]
    rfl

end Registry

/-- **In every run the catalog behaves as the list of sections that the office started with**, with
some of their seats and exam times changed. -/
theorem Office.run_behaves {o : Office} {sections : List Section}
    (loaded : o.registry.catalog = .ofSections sections) (turns : List Turn) :
    ∃ revisions, (o.run turns).2.registry.catalog.Behaves
      (Catalog.reviseEntries (Catalog.loaded sections) revisions) := by
  have hkept := run_keeps (P := fun _ r => ∃ revisions,
    r.catalog = (Catalog.ofSections sections).reviseAll revisions) ?_ ?_ turns (o := o) []
    ⟨[], loaded⟩
  · obtain ⟨revisions, hcatalog⟩ := hkept
    rw [hcatalog]
    exact ⟨revisions, ((Catalog.lists_ofSections sections).revise_all revisions).behaves⟩
  · rintro log now r request records r' ⟨revisions, hcatalog⟩ heffect
    obtain ⟨later, hlater⟩ := heffect.revisions
    exact ⟨revisions ++ later, by rw [hlater, hcatalog, Catalog.reviseAll_append]⟩
  · rintro log r ref time ⟨revisions, hcatalog⟩
    obtain ⟨later, hlater⟩ := r.setExamTime_revisions ref time
    exact ⟨revisions ++ later, by rw [hlater, hcatalog, Catalog.reviseAll_append]⟩

end CourseRegistration
