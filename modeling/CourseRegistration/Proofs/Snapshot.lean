import CourseRegistration.Proofs.Consistency
import CourseRegistration.Proofs.Loading

/-!
# What a built registry is like

A registry is built exactly from the well-formed snapshots (`build_eq_ok_iff`), so what is true of
every built registry can be read off the snapshot.  The seats of a section are those of its listed
students taken in order, and a student holds the listed courses.

The main statement, `build_consistent`, is that every registry that is built is consistent:
well-formed snapshots say of the same students that they are on a roster and that they hold the
section.
-/

namespace CourseRegistration

/-! ## Seats taken in order -/

namespace Seats

variable {capacity reserve : UInt64} {l : List StudentId} {x : StudentId}

/-- The first students listed are registered, as many as there are seats, and the others wait. -/
lemma seatInOrder_vacant (capacity reserve : UInt64) (l : List StudentId) :
    (vacant capacity reserve).seatInOrder l =
      ⟨capacity, reserve, .insertAll .empty (l.take capacity.toNat), l.drop capacity.toNat⟩ :=
  rfl

lemma mem_insertAll_empty : x ∈ OrderedSet.insertAll .empty l ↔ x ∈ l := by
  rw [OrderedSet.mem_insertAll]
  exact or_iff_left List.not_mem_nil

lemma holds_seatInOrder :
    ((vacant capacity reserve).seatInOrder l).holds x = true ↔ x ∈ l := by
  rw [holds_iff, seatInOrder_vacant, mem_insertAll_empty, ← List.mem_append,
    List.take_append_drop]

lemma orderly_seatInOrder (hl : l.Nodup) : ((vacant capacity reserve).seatInOrder l).Orderly := by
  constructor
  · exact hl.sublist (List.drop_sublist _ _)
  · intro x hx hw
    exact List.disjoint_take_drop hl (Nat.le_refl _) (mem_insertAll_empty.1 hx) hw

lemma size_seatInOrder (hl : l.Nodup) :
    ((vacant capacity reserve).seatInOrder l).registered.size = min capacity.toNat l.length := by
  have hsize := OrderedSet.size_insertAll (s := .empty) (hl.sublist (List.take_sublist _ _))
    fun x (_ : x ∈ l.take capacity.toNat) => List.not_mem_nil
  rw [List.length_take] at hsize
  exact hsize.trans (Nat.zero_add _)

lemma bounded_seatInOrder (hl : l.Nodup) (room : l.length ≤ capacity.toNat + reserve.toNat) :
    ((vacant capacity reserve).seatInOrder l).Bounded := by
  constructor
  · rw [size_seatInOrder hl]
    exact Nat.min_le_left _ _
  · show (l.drop capacity.toNat).length ≤ reserve.toNat
    rw [List.length_drop]
    omega

/-- Only who finds every seat taken waits. -/
lemma idleAtMost_seatInOrder (hl : l.Nodup) :
    ((vacant capacity reserve).seatInOrder l).IdleAtMost 0 := by
  intro hwaits
  have hlong : capacity.toNat < l.length := by
    rw [← Nat.not_le, ← List.drop_eq_nil_iff]
    exact hwaits
  rw [size_seatInOrder hl]
  show capacity.toNat ≤ _
  omega

end Seats

namespace Snapshot

variable {s : Snapshot} {r : Registry} {key : SectionKey} {id : StudentId} {ref : Catalog.Ref}
  {made : Section}

/-! ## Rosters and holdings -/

/-- A loaded student holds the listed courses. -/
lemma StoredStudent.held_built_perm {x : StoredStudent} (hx : (x.courses.map (·.course)).Nodup)
    (sections : OrderedMap SectionKey Section) : (x.built sections).held.Perm x.courses := by
  have hentries : (x.built sections).courses.entries.Perm
      (x.courses.map fun key => (key.course, key.group)) :=
    OrderedMap.entries_foldl_insert_perm hx
  refine (hentries.map fun e => (⟨e.1, e.2⟩ : SectionKey)).trans (List.Perm.of_eq ?_)
  rw [List.map_map]
  exact List.map_id _

/-- Who has a place in a loaded registry is listed in the section. -/
lemma WellFormed.hasPlace_iff (hs : s.WellFormed) :
    s.registry.ledger.HasPlace id key ↔ ∃ t ∈ s.sections, t.key = key ∧ id ∈ t.students := by
  constructor
  · rintro ⟨seats, hseats, hholds⟩
    obtain ⟨⟨ref, made⟩, found, rfl⟩ := Option.map_eq_some_iff.1 hseats
    obtain ⟨t, ht, hkey, rfl⟩ := hs.lookup_eq_some found
    exact ⟨t, ht, hkey, Seats.holds_seatInOrder.1 hholds⟩
  · rintro ⟨t, ht, rfl, hid⟩
    have hget : s.sectionMap.get? t.key = some t.built :=
      OrderedMap.get?_foldl_insert_of_mem hs.sections_nodup ht
    rw [← hs.lookup_registry] at hget
    obtain ⟨⟨ref, made⟩, found, rfl⟩ := Option.map_eq_some_iff.1 hget
    exact ⟨t.built.seats, by simp [Registry.ledger, found], Seats.holds_seatInOrder.2 hid⟩

/-- What is held in a loaded registry is listed with the student. -/
lemma WellFormed.held_iff (hs : s.WellFormed) :
    s.registry.ledger.held id key.course = some key.group ↔
      ∃ x ∈ s.students, x.id = id ∧ key ∈ x.courses := by
  constructor
  · intro hheld
    obtain ⟨student, known, holds⟩ := Option.bind_eq_some_iff.1 hheld
    obtain ⟨x, hx, hid, rfl⟩ := hs.studentMap_eq_some known
    have hperm := StoredStudent.held_built_perm (hs.courses_nodup x hx) s.sectionMap
    exact ⟨x, hx, hid, hperm.mem_iff.1 (Registry.mem_held.2 holds)⟩
  · rintro ⟨x, hx, rfl, hkey⟩
    have known : s.registry.students.get? x.id = some (x.built s.sectionMap) :=
      OrderedMap.get?_foldl_insert_of_mem hs.students_nodup hx
    have hperm := StoredStudent.held_built_perm (hs.courses_nodup x hx) s.sectionMap
    rw [Registry.held_ledger known]
    exact Registry.mem_held.1 (hperm.mem_iff.2 hkey)

/-- **Every registry that is built from a snapshot is consistent.** -/
theorem build_consistent (h : s.build = .ok r) : r.Consistent := by
  obtain ⟨hs, rfl⟩ := build_eq_ok_iff.1 h
  refine ⟨⟨hs.canonical_registry.toSound, ?_⟩, ?_, fun id key => ?_⟩
  · intro id student known
    obtain ⟨x, -, hid, rfl⟩ := hs.studentMap_eq_some known
    exact hid
  · intro key seats hseats
    obtain ⟨⟨ref, made⟩, found, rfl⟩ := Option.map_eq_some_iff.1 hseats
    obtain ⟨t, ht, -, rfl⟩ := hs.lookup_eq_some found
    exact Seats.orderly_seatInOrder (hs.loadable t ht).nodup
  · rw [hs.hasPlace_iff, hs.held_iff]
    constructor
    · rintro ⟨t, ht, rfl, hid⟩
      exact hs.held t ht id hid
    · rintro ⟨x, hx, rfl, hkey⟩
      exact hs.on_roster x hx key hkey

/-- Every section of a built registry is made from a stored one that can be loaded and whose
department is listed. -/
lemma section_of_build (h : s.build = .ok r) (found : r.catalog.lookup key = some (ref, made)) :
    ∃ t : StoredSection, t.Loadable ∧ r.departments.contains t.department = true ∧
      t.built = made := by
  obtain ⟨hs, rfl⟩ := build_eq_ok_iff.1 h
  obtain ⟨t, ht, -, hmade⟩ := hs.lookup_eq_some found
  refine ⟨t, hs.loadable t ht, ?_, hmade⟩
  exact (OrderedMap.contains_foldl_insert hs.departments_nodup).2 (hs.department_listed t ht)

/-! ## A small snapshot -/

/-- Two groups of a course, with one seat and one place to wait each.  In group 1 student 1 is
registered and student 2 waits; student 3 has no place yet. -/
def small : Snapshot where
  departments := [⟨⟨7⟩, "Mathematics"⟩]
  sections := [group 1 [⟨1⟩, ⟨2⟩], group 2 []]
  students := [student 1 [⟨⟨100⟩, ⟨1⟩⟩], student 2 [⟨⟨100⟩, ⟨1⟩⟩], student 3 []]
where
  /-- A group of the course with the given roster. -/
  group (number : UInt8) (students : List StudentId) : StoredSection :=
    ⟨⟨⟨100⟩, ⟨number⟩⟩, ⟨7⟩, "staff", 3, 1, 1, none, none, .unlocked, students⟩
  /-- A student whose window starts right before 1970 and who holds the given sections. -/
  student (number : UInt64) (courses : List SectionKey) : StoredStudent :=
    ⟨⟨number⟩, -1, 12, 2, .female, courses⟩

end Snapshot

/-- The registry of the small snapshot. -/
def Registry.small : Registry :=
  Snapshot.small.build.toOption.getD default

lemma Snapshot.small_build : small.build = .ok .small :=
  rfl

end CourseRegistration
