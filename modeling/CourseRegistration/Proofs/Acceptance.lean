import CourseRegistration.Proofs.Reload

/-!
# Which snapshots make a registry

Building compares rosters and courses by claims, raises and settles them in two loops, and stops at
the first thing that is wrong.  This module says what that comes to in words that can be checked
against the snapshot alone.  A snapshot is `Coherent` if nothing is listed twice, everything that is
named is listed, the hours and the sizes are possible, and both sides say the same of who has a
place where.  A snapshot `Describes` a registry if the registry has what is listed and nothing else,
with the first students of each list registered and the others waiting in their order.

The headline is `build_iff_coherent`: the coherent snapshots are exactly those that make a registry,
and the registry that a snapshot makes is one that it describes.
-/

namespace CourseRegistration

namespace Snapshot

/-- The units of the section listed under the key, none if no section is. -/
def unitsAt (s : Snapshot) (key : SectionKey) : Nat :=
  ((s.sections.find? (·.key = key)).map (·.units.toNat)).getD 0

/-- A snapshot that nothing is wrong with. -/
structure Coherent (s : Snapshot) : Prop where
  /-- No department is listed twice. -/
  departments_distinct : (s.departments.map (·.id)).Nodup
  /-- No section is listed twice. -/
  sections_distinct : (s.sections.map (·.key)).Nodup
  /-- The department of a section is listed. -/
  department_known : ∀ t ∈ s.sections, t.department ∈ s.departments.map (·.id)
  /-- The hours of a section, if it has any, lie within the day, and it does not end before it
  begins. -/
  hours_possible : ∀ t ∈ s.sections, ∀ h, t.hours = some h →
    h.start.toNat < 1440 ∧ h.finish.toNat < 1440 ∧ h.start.toNat ≤ h.finish.toNat
  /-- Nobody is listed twice in a section. -/
  roster_distinct : ∀ t ∈ s.sections, t.students.Nodup
  /-- A section has a place for everyone listed in it. -/
  roster_fits : ∀ t ∈ s.sections, t.students.length ≤ t.capacity.toNat + t.reserve.toNat
  /-- No student is listed twice. -/
  students_distinct : (s.students.map (·.id)).Nodup
  /-- No student lists a course twice. -/
  courses_distinct : ∀ x ∈ s.students, (x.courses.map (·.course)).Nodup
  /-- The sections that a student lists are listed. -/
  courses_known : ∀ x ∈ s.students, ∀ key ∈ x.courses, key ∈ s.sections.map (·.key)
  /-- A student lists exactly the sections in which the student is listed. -/
  sides_agree : ∀ id key, (∃ x ∈ s.students, x.id = id ∧ key ∈ x.courses) ↔
    ∃ t ∈ s.sections, t.key = key ∧ id ∈ t.students

/-- The section is the one that is stored, with the first students of the list registered and the
others waiting. -/
structure StoredSection.Describes (t : StoredSection) (made : Section) : Prop where
  key : made.key = t.key
  department : made.department = t.department
  lecturer : made.lecturer = t.lecturer
  units : made.units = t.units
  examTime : made.examTime = t.examTime.getD 0
  hours : made.hours = (t.hours.map WeeklyHours.ofHours).getD .unscheduled
  lock : made.lock = t.lock
  capacity : made.seats.capacity = t.capacity
  reserve : made.seats.reserve = t.reserve
  /-- As many of the first students are registered as there are seats. -/
  registered : ∀ id, id ∈ made.seats.registered ↔
    id ∈ t.students.take (min t.capacity.toNat t.students.length)
  /-- The others wait in the order of the list. -/
  waitlist : made.seats.waitlist = t.students.drop (min t.capacity.toNat t.students.length)

/-- The student is the one who is stored, and has the courses that are listed. -/
structure StoredStudent.Describes (s : Snapshot) (x : StoredStudent) (made : Student) : Prop where
  id : made.id = x.id
  gender : made.gender = x.gender
  windowStart : made.windowStart = x.windowStart
  maxUnits : made.maxUnits = x.maxUnits
  actions : made.actions = x.actions
  courses : ∀ key : SectionKey, made.courses.get? key.course = some key.group ↔ key ∈ x.courses
  /-- The total of units is the sum, or the largest word if that is less. -/
  units : made.units.toNat = min 65535 (x.courses.map s.unitsAt).sum

/-- The registry has what the snapshot lists, and nothing else. -/
structure Describes (s : Snapshot) (r : Registry) : Prop where
  departments : ∀ id name, r.departments.get? id = some name ↔ ⟨id, name⟩ ∈ s.departments
  sections_found : ∀ t ∈ s.sections, ∃ ref made,
    r.catalog.lookup t.key = some (ref, made) ∧ t.Describes made
  sections_listed : ∀ ref made, r.catalog.get? ref = some made → ∃ t ∈ s.sections, t.Describes made
  students_found : ∀ x ∈ s.students, ∃ made,
    r.students.get? x.id = some made ∧ x.Describes s made
  students_listed : ∀ id made, r.students.get? id = some made →
    ∃ x ∈ s.students, x.id = id ∧ x.Describes s made

variable {s : Snapshot} {r : Registry} {t : StoredSection} {x : StoredStudent}

/-! ## Which snapshots -/

/-- A section that lists no hours has none.  Others have the hours listed, which must be possible. -/
lemma StoredSection.weekly_eq_ok_iff {hours : WeeklyHours} :
    t.weekly = .ok hours ↔ (∀ h, t.hours = some h →
        h.start.toNat < 1440 ∧ h.finish.toNat < 1440 ∧ h.start.toNat ≤ h.finish.toNat) ∧
      hours = (t.hours.map WeeklyHours.ofHours).getD .unscheduled := by
  unfold StoredSection.weekly
  cases t.hours with
  | none => simp [eq_comm]
  | some h =>
    have hpacked : h.toWeekly = .ok hours ↔ _ := Hours.toWeekly_eq_ok_iff
    cases hweekly : h.toWeekly <;> simpa [hweekly] using hpacked

/-- A section can be loaded if its hours are possible and everyone listed once finds a place. -/
lemma StoredSection.loadable_iff :
    t.Loadable ↔ (∀ h, t.hours = some h →
        h.start.toNat < 1440 ∧ h.finish.toNat < 1440 ∧ h.start.toNat ≤ h.finish.toNat) ∧
      t.students.Nodup ∧ t.students.length ≤ t.capacity.toNat + t.reserve.toNat := by
  constructor
  · rintro ⟨⟨hours, hweekly⟩, hnodup, hroom⟩
    exact ⟨(weekly_eq_ok_iff.1 hweekly).1, hnodup, hroom⟩
  · rintro ⟨hours, hnodup, hroom⟩
    exact ⟨⟨_, weekly_eq_ok_iff.2 ⟨hours, rfl⟩⟩, hnodup, hroom⟩

/-- The coherent snapshots are the well-formed ones. -/
lemma coherent_iff_wellFormed : s.Coherent ↔ s.WellFormed := by
  constructor
  · intro hs
    refine ⟨hs.departments_distinct, hs.sections_distinct, fun t ht => ?_, fun t ht => ?_,
      hs.students_distinct, hs.courses_distinct, fun x hx key hkey => ?_, fun t ht id hid => ?_⟩
    · exact List.mem_map.1 (hs.department_known t ht)
    · exact StoredSection.loadable_iff.2
        ⟨hs.hours_possible t ht, hs.roster_distinct t ht, hs.roster_fits t ht⟩
    · exact (hs.sides_agree x.id key).1 ⟨x, hx, rfl, hkey⟩
    · exact (hs.sides_agree id t.key).2 ⟨t, ht, rfl, hid⟩
  · intro hs
    have hload := fun t ht => StoredSection.loadable_iff.1 (hs.loadable t ht)
    refine ⟨hs.departments_nodup, hs.sections_nodup, fun t ht => ?_, fun t ht => (hload t ht).1,
      fun t ht => (hload t ht).2.1, fun t ht => (hload t ht).2.2, hs.students_nodup,
      hs.courses_nodup, fun x hx key hkey => ?_, fun id key => ⟨?_, ?_⟩⟩
    · exact List.mem_map.2 (hs.department_listed t ht)
    · obtain ⟨t, ht, rfl, -⟩ := hs.on_roster x hx key hkey
      exact List.mem_map_of_mem ht
    · rintro ⟨x, hx, rfl, hkey⟩
      exact hs.on_roster x hx key hkey
    · rintro ⟨t, ht, rfl, hid⟩
      exact hs.held t ht id hid

/-! ## Which registry -/

lemma StoredSection.Loadable.describes (ht : t.Loadable) : t.Describes t.built := by
  obtain ⟨hours, hweekly⟩ := ht.hours
  have hbuilt : t.built.hours = hours := by
    unfold StoredSection.built
    rw [hweekly]
    rfl
  refine ⟨rfl, rfl, rfl, rfl, rfl, hbuilt.trans (weekly_eq_ok_iff.1 hweekly).2, rfl, rfl, rfl,
    fun id => ?_, ?_⟩
  · rw [← List.take_eq_take_min]
    exact Seats.mem_insertAll_empty
  · rw [← List.drop_eq_drop_min]
    rfl

namespace WellFormed

/-- What a section counts is what the one listed under its key counts. -/
lemma unitsIn_eq (hs : s.WellFormed) (key : SectionKey) :
    (unitsIn s.sectionMap key).toNat = s.unitsAt key := by
  have hget : s.sectionMap.get? key = (s.sections.find? (·.key = key)).map (·.built) := by
    cases hfind : s.sections.find? (·.key = key) with
    | none =>
      rw [List.find?_eq_none] at hfind
      rw [Option.map_none, Option.eq_none_iff_forall_ne_some]
      intro made hmade
      obtain ⟨t, ht, hkey, -⟩ := hs.sectionMap_eq_some hmade
      exact hfind t ht (by simpa using hkey)
    | some t =>
      obtain rfl : t.key = key := by simpa using List.find?_some hfind
      exact OrderedMap.get?_foldl_insert_of_mem hs.sections_nodup (List.mem_of_find?_eq_some hfind)
  unfold unitsIn Snapshot.unitsAt
  rw [hget]
  cases s.sections.find? (·.key = key) <;> rfl

lemma describes_student (hs : s.WellFormed) (hx : x ∈ s.students) :
    x.Describes s (x.built s.sectionMap) := by
  refine ⟨rfl, rfl, rfl, rfl, rfl, fun key => ?_, ?_⟩
  · rw [← Registry.mem_held]
    exact (StoredStudent.held_built_perm (hs.courses_nodup x hx) s.sectionMap).mem_iff
  · rw [StoredStudent.toNat_units_built]
    simp only [hs.unitsIn_eq]

lemma describes_registry (hs : s.WellFormed) : s.Describes s.registry := by
  refine ⟨fun id name => ?_, fun t ht => ?_, fun ref made hget => ?_, fun x hx => ?_,
    fun id made known => ?_⟩
  · show s.departmentMap.get? id = some name ↔ _
    constructor
    · intro hget
      obtain ⟨d, hd, rfl, rfl⟩ := OrderedMap.get?_foldl_insert_eq_some hs.departments_nodup hget
      exact hd
    · intro hd
      exact OrderedMap.get?_foldl_insert_of_mem hs.departments_nodup hd
  · have hget : s.sectionMap.get? t.key = some t.built :=
      OrderedMap.get?_foldl_insert_of_mem hs.sections_nodup ht
    rw [← hs.lookup_registry] at hget
    obtain ⟨⟨ref, made⟩, found, rfl⟩ := Option.map_eq_some_iff.1 hget
    exact ⟨ref, _, found, (hs.loadable t ht).describes⟩
  · have found := hs.canonical_registry.toSound.lookup_key hget
    obtain ⟨t, ht, -, rfl⟩ := hs.lookup_eq_some found
    exact ⟨t, ht, (hs.loadable t ht).describes⟩
  · exact ⟨_, OrderedMap.get?_foldl_insert_of_mem hs.students_nodup hx, hs.describes_student hx⟩
  · obtain ⟨x, hx, hid, rfl⟩ := hs.studentMap_eq_some known
    exact ⟨x, hx, hid, hs.describes_student hx⟩

end WellFormed

/-- **A registry is made exactly by the coherent snapshots**, and it is as the snapshot describes
it. -/
theorem build_iff_coherent (s : Snapshot) :
    ((∃ r, s.build = .ok r) ↔ s.Coherent) ∧ ∀ r, s.build = .ok r → s.Describes r := by
  constructor
  · rw [coherent_iff_wellFormed]
    constructor
    · rintro ⟨r, built⟩
      exact (build_eq_ok_iff.1 built).1
    · exact fun hs => ⟨s.registry, build_eq_ok_iff.2 ⟨hs, rfl⟩⟩
  · intro r built
    obtain ⟨hs, rfl⟩ := build_eq_ok_iff.1 built
    exact hs.describes_registry

/-- The small snapshot makes its registry, in which student 2 waits behind student 1. -/
theorem build_iff_coherent_small : small.Coherent ∧ small.Describes .small := by
  obtain ⟨hiff, hdescribes⟩ := build_iff_coherent small
  exact ⟨hiff.1 ⟨.small, small_build⟩, hdescribes .small small_build⟩

end Snapshot

end CourseRegistration
