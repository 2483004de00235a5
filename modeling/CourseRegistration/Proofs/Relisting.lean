import CourseRegistration.Proofs.Reload
import Mathlib.Algebra.BigOperators.Group.List.Basic
import Mathlib.Data.List.Perm.Basic

/-!
# The order of a snapshot's lists

Building goes through the lists of a snapshot one after the other and stops at the first thing that
is wrong, so which defect is reported depends on the order of the lists.  Whether there is a defect
does not, nor does the registry that is built (`build_relisted`).  The one list whose order matters
is that of the students of a section, who take its places in turn; it is left alone here.

Nothing of the loops is needed for this.  A snapshot is well formed or not by what its lists
contain, the maps of a registry are determined by what they answer, and the units of a student are
a sum that is cut off at the end.
-/

namespace CourseRegistration

namespace Snapshot

/-! ## Listed in another order -/

/-- The same student, with the held courses in another order. -/
structure StoredStudent.Relisted (x y : StoredStudent) : Prop where
  courses : x.courses.Perm y.courses
  rest : y = { x with courses := y.courses }

/-- The same snapshot, with its departments, its sections, its students and the courses of each
student in another order. -/
structure Relisted (s s' : Snapshot) : Prop where
  departments : s.departments.Perm s'.departments
  sections : s.sections.Perm s'.sections
  /-- The students are put in another order, and then the courses of each. -/
  students : ∃ l, s.students.Perm l ∧ List.Forall₂ StoredStudent.Relisted l s'.students

variable {s s' : Snapshot} {x y : StoredStudent}

lemma StoredStudent.Relisted.symm (h : x.Relisted y) : y.Relisted x :=
  ⟨h.courses.symm, by rw [h.rest]⟩

lemma StoredStudent.Relisted.id_eq (h : x.Relisted y) : y.id = x.id := by
  rw [h.rest]

namespace Relisted

protected lemma symm (h : Relisted s s') : Relisted s' s := by
  obtain ⟨l, hperm, hsame⟩ := h.students
  obtain ⟨l', hsame', hperm'⟩ := List.perm_comp_forall₂ hperm hsame
  refine ⟨h.departments.symm, h.sections.symm, l', hperm'.symm, ?_⟩
  exact hsame'.flip.imp fun _ _ hxy => hxy.symm

/-- Every student of the one snapshot is a student of the other. -/
lemma exists_student (h : Relisted s s') (hx : x ∈ s.students) :
    ∃ y ∈ s'.students, x.Relisted y := by
  obtain ⟨l, hperm, hsame⟩ := h.students
  obtain ⟨i, hi, rfl⟩ := List.mem_iff_getElem.1 (hperm.mem_iff.1 hx)
  have hi' : i < s'.students.length := hsame.length_eq ▸ hi
  exact ⟨s'.students[i], List.getElem_mem hi', hsame.get hi hi'⟩

lemma ids_perm (h : Relisted s s') : (s.students.map (·.id)).Perm (s'.students.map (·.id)) := by
  obtain ⟨l, hperm, hsame⟩ := h.students
  have hids : List.Forall₂ (· = ·) (l.map (·.id)) (s'.students.map (·.id)) := by
    rw [List.forall₂_map_left_iff, List.forall₂_map_right_iff]
    exact hsame.imp fun _ _ hxy => hxy.id_eq.symm
  exact (hperm.map _).trans (.of_eq (List.forall₂_eq_eq_eq ▸ hids))

/-! ## The same snapshots are well formed -/

protected lemma wellFormed (h : Relisted s s') (hs : s.WellFormed) : s'.WellFormed := by
  have hsection : ∀ t, t ∈ s'.sections ↔ t ∈ s.sections := fun t => h.sections.mem_iff.symm
  refine ⟨?_, ?_, fun t ht => ?_, fun t ht => ?_, ?_, fun y hy => ?_, fun y hy key hkey => ?_,
    fun t ht id hid => ?_⟩
  · exact (h.departments.map _).nodup_iff.1 hs.departments_nodup
  · exact (h.sections.map _).nodup_iff.1 hs.sections_nodup
  · obtain ⟨d, hd, hid⟩ := hs.department_listed t ((hsection t).1 ht)
    exact ⟨d, h.departments.mem_iff.1 hd, hid⟩
  · exact hs.loadable t ((hsection t).1 ht)
  · exact h.ids_perm.nodup_iff.1 hs.students_nodup
  · obtain ⟨x, hx, hyx⟩ := h.symm.exists_student hy
    exact (hyx.courses.map _).nodup_iff.2 (hs.courses_nodup x hx)
  · obtain ⟨x, hx, hyx⟩ := h.symm.exists_student hy
    obtain ⟨t, ht, hkey', hid⟩ := hs.on_roster x hx key (hyx.courses.mem_iff.1 hkey)
    rw [hyx.id_eq] at hid
    exact ⟨t, (hsection t).2 ht, hkey', hid⟩
  · obtain ⟨x, hx, rfl, hkey⟩ := hs.held t ((hsection t).1 ht) id hid
    obtain ⟨y, hy, hxy⟩ := h.exists_student hx
    exact ⟨y, hy, hxy.id_eq, hxy.courses.mem_iff.1 hkey⟩

end Relisted

/-! ## The same registry is made -/

/-- The courses of a student are a map, and the units are a sum that is cut off in the end. -/
lemma StoredStudent.Relisted.built_eq (h : x.Relisted y) (hx : (x.courses.map (·.course)).Nodup)
    (sections : OrderedMap SectionKey Section) : y.built sections = x.built sections := by
  have hcourses : (y.built sections).courses = (x.built sections).courses :=
    (OrderedMap.foldl_insert_perm h.courses hx).symm
  have hunits : (y.built sections).units = (x.built sections).units := by
    rw [← UInt16.toNat_inj, toNat_units_built, toNat_units_built, (h.courses.map _).sum_eq]
  calc y.built sections
      = { x.built sections with
          units := (y.built sections).units
          courses := (y.built sections).courses } := by
        rw [h.rest]
        rfl
    _ = x.built sections := by rw [hcourses, hunits]

namespace Relisted

lemma sectionMap_eq (h : Relisted s s') (hs : s.WellFormed) : s'.sectionMap = s.sectionMap :=
  (OrderedMap.foldl_insert_perm h.sections hs.sections_nodup).symm

/-- Under each number the same student is found. -/
lemma studentMap_eq (h : Relisted s s') (hs : s.WellFormed) : s'.studentMap = s.studentMap := by
  have hs' : s'.WellFormed := h.wellFormed hs
  refine OrderedMap.ext_get? fun id => ?_
  by_cases hid : id ∈ s.students.map (·.id)
  · obtain ⟨x, hx, rfl⟩ := List.mem_map.1 hid
    obtain ⟨y, hy, hxy⟩ := h.exists_student hx
    have hfound : s.studentMap.get? x.id = some (x.built s.sectionMap) :=
      OrderedMap.get?_foldl_insert_of_mem hs.students_nodup hx
    have hfound' : s'.studentMap.get? y.id = some (y.built s'.sectionMap) :=
      OrderedMap.get?_foldl_insert_of_mem hs'.students_nodup hy
    rw [hfound, ← hxy.id_eq, hfound', h.sectionMap_eq hs, hxy.built_eq (hs.courses_nodup x hx)]
  · have hid' : id ∉ s'.students.map (·.id) := fun hmem => hid (h.ids_perm.mem_iff.2 hmem)
    have hnone : s.studentMap.get? id = none := OrderedMap.get?_foldl_insert_of_not_mem hid
    have hnone' : s'.studentMap.get? id = none := OrderedMap.get?_foldl_insert_of_not_mem hid'
    rw [hnone, hnone']

lemma registry_eq (h : Relisted s s') (hs : s.WellFormed) : s'.registry = s.registry := by
  have hdepartments : s'.departmentMap = s.departmentMap :=
    (OrderedMap.foldl_insert_perm h.departments hs.departments_nodup).symm
  unfold registry
  rw [hdepartments, h.sectionMap_eq hs, h.studentMap_eq hs]

/-- What is built from the one snapshot is built from the other. -/
lemma build_eq_ok {r : Registry} (h : Relisted s s') (built : s.build = .ok r) :
    s'.build = .ok r := by
  obtain ⟨hs, rfl⟩ := build_eq_ok_iff.1 built
  exact build_eq_ok_iff.2 ⟨h.wellFormed hs, (h.registry_eq hs).symm⟩

end Relisted

/-- **The order in which a snapshot lists things does not matter to what is built**: either no
registry is built from the two snapshots, or the same is, with the same departments, the same
sections at the same places, and the same students. -/
theorem build_relisted (h : Relisted s s') :
    (∃ defect defect', s.build = .error defect ∧ s'.build = .error defect') ∨
      ∃ r, s.build = .ok r ∧ s'.build = .ok r := by
  cases built : s.build with
  | ok r => exact .inr ⟨r, rfl, h.build_eq_ok built⟩
  | error defect =>
    cases built' : s'.build with
    | ok r =>
      rw [h.symm.build_eq_ok built'] at built
      cases built
    | error defect' => exact .inl ⟨defect, defect', rfl, rfl⟩

/-- The small snapshot from its end to its beginning. -/
theorem build_relisted_small :
    (⟨small.departments, small.sections.reverse, small.students.reverse⟩ : Snapshot).build =
      small.build := by
  have h : Relisted small ⟨small.departments, small.sections.reverse, small.students.reverse⟩ := by
    refine ⟨.refl _, (List.reverse_perm _).symm, _, (List.reverse_perm _).symm, ?_⟩
    exact List.forall₂_same.2 fun x _ => ⟨.refl _, rfl⟩
  rcases build_relisted h with ⟨defect, -, hdefect, -⟩ | ⟨r, hr, hr'⟩
  · rw [small_build] at hdefect
    cases hdefect
  · rw [hr, hr']

end Snapshot

end CourseRegistration
