import CourseRegistration.Proofs.Hours
import CourseRegistration.Proofs.Loading
import CourseRegistration.Proofs.Units
import CourseRegistration.Proofs.Waiting
import Mathlib.Data.List.Infix

/-!
# Registries that are written down and read back

A registry is written down as a snapshot with everyone of a section in one list, the registered
students first.  Building seats them by their place in the list, unpacks and packs the hours, and
adds up the units anew.  What is built is the same registry if it is `Storable`: no seat is idle in
front of a waitlist, the hours can have come from written ones, and every total is exact, besides
what every registry in service satisfies (`Storable.build_toSnapshot`).

Built registries are storable, and every turn leaves a storable registry storable, unless a request
stalls or a student holds more units than a word can count; so the registries of all other runs can
be reloaded (`run_reloads`).
-/

namespace CourseRegistration

open Journal Snapshot

/-! ## Writing down -/

/-- The section as a snapshot has it. -/
def Section.toStored (s : Section) : StoredSection where
  key := s.key
  department := s.department
  lecturer := s.lecturer
  units := s.units
  capacity := s.seats.capacity
  reserve := s.seats.reserve
  examTime := some s.examTime
  hours := some s.hours.toHours
  lock := s.lock
  students := s.seats.registered.items ++ s.seats.waitlist

/-- The student as a snapshot has it; the units are left out. -/
def Student.toStored (s : Student) : StoredStudent where
  id := s.id
  windowStart := s.windowStart
  maxUnits := s.maxUnits
  actions := s.actions
  gender := s.gender
  courses := s.held

/-- The registry as a snapshot. -/
def Registry.toSnapshot (r : Registry) : Snapshot where
  departments := r.departments.entries.map fun e => ⟨e.1, e.2⟩
  sections := r.catalog.sections.map Section.toStored
  students := r.students.values.map Student.toStored

/-! ## Sections -/

/-- Loaded hours are the packed form of some hours. -/
lemma Snapshot.StoredSection.toWeekly_of_weekly {t : StoredSection} {hours : WeeklyHours}
    (h : t.weekly = .ok hours) : ∃ h : Hours, h.toWeekly = .ok hours := by
  unfold StoredSection.weekly at h
  split at h
  · cases h
    exact ⟨⟨[], 0, 0⟩, rfl⟩
  · split at h
    · rename_i packed
      cases h
      exact ⟨_, packed⟩
    · cases h

namespace Seats

variable {s : Seats}

lemma insertAll_items (s : Seats) : OrderedSet.empty.insertAll s.registered.items = s.registered :=
  OrderedSet.ext_mem fun _ => mem_insertAll_empty

/-- Everyone who has a place gets the same place again, if no seat is idle in front of a waitlist.
-/
lemma seatInOrder_roster (hs : s.Bounded) (hidle : s.IdleAtMost 0) :
    (vacant s.capacity s.reserve).seatInOrder (s.registered.items ++ s.waitlist) = s := by
  have hle : s.registered.items.length ≤ s.capacity.toNat := hs.registered_le
  have hsplit : (s.registered.items ++ s.waitlist).take s.capacity.toNat = s.registered.items ∧
      (s.registered.items ++ s.waitlist).drop s.capacity.toNat = s.waitlist := by
    by_cases hwaits : s.waitlist = []
    · rw [hwaits, List.append_nil]
      exact ⟨List.take_of_length_le hle, List.drop_of_length_le hle⟩
    · have hfull : s.capacity.toNat = s.registered.items.length :=
        Nat.le_antisymm (hidle hwaits) hle
      rw [hfull]
      exact ⟨List.take_left, List.drop_left⟩
  rw [seatInOrder_vacant, hsplit.1, hsplit.2, insertAll_items]

end Seats

namespace Section

variable {s : Section} {departments : OrderedMap DepartmentId String}

/-- What a snapshot takes for granted of a section: its department is one of those listed, its hours
have been written down once, and no more students have places than there are. -/
structure Storable (departments : OrderedMap DepartmentId String) (s : Section) : Prop where
  listed : departments.contains s.department = true
  hours : ∃ h : Hours, h.toWeekly = .ok s.hours
  bounded : s.seats.Bounded

lemma weekly_toStored (hs : s.Storable departments) : s.toStored.weekly = .ok s.hours := by
  obtain ⟨h, packed⟩ := hs.hours
  unfold StoredSection.weekly toStored
  dsimp only
  rw [WeeklyHours.toWeekly_toHours packed]

/-- A section that was written down is made again. -/
lemma built_toStored (hs : s.Storable departments) (hidle : s.seats.IdleAtMost 0) :
    s.toStored.built = s := by
  have hweekly : (s.toStored.weekly.toOption.getD .unscheduled) = s.hours := by
    rw [weekly_toStored hs]
    rfl
  have hseats := Seats.seatInOrder_roster hs.bounded hidle
  unfold StoredSection.built StoredSection.vacant withSeats
  rw [hweekly]
  dsimp only [toStored, Option.getD_some]
  rw [hseats]

lemma loadable_toStored (hs : s.Storable departments) (orderly : s.seats.Orderly) :
    s.toStored.Loadable := by
  refine ⟨⟨s.hours, weekly_toStored hs⟩, ?_, ?_⟩
  · refine List.nodup_append'.2 ⟨s.seats.registered.nodup_items, orderly.nodup, ?_⟩
    exact fun x hx hw => orderly.separate hx hw
  · show (s.seats.registered.items ++ s.seats.waitlist).length ≤ _
    rw [List.length_append]
    exact Nat.add_le_add hs.bounded.registered_le hs.bounded.waitlist_le

lemma mem_students_toStored {id : StudentId} :
    id ∈ s.toStored.students ↔ s.seats.holds id = true := by
  rw [Seats.holds_iff]
  exact List.mem_append

end Section

/-! ## Students -/

namespace Snapshot

/-- The total of a loaded student is the sum over the listed courses, or the largest word if that is
less. -/
lemma StoredStudent.toNat_units_built (x : StoredStudent)
    (sections : OrderedMap SectionKey Section) :
    (x.built sections).units.toNat =
      min 65535 (x.courses.map fun key => (unitsIn sections key).toNat).sum := by
  refine (Student.toNat_foldl_addUnits (unitsIn sections) x.courses 0).trans ?_
  rw [UInt16.toNat_zero, Nat.zero_add]

end Snapshot

/-- A student who was written down is made again, if the total is the sum over the held sections. -/
lemma Student.built_toStored {s : Student} {sections : OrderedMap SectionKey Section}
    (htotal : s.units.toNat = (s.held.map fun key => (unitsIn sections key).toNat).sum) :
    s.toStored.built sections = s := by
  have hunits : (s.toStored.built sections).units = s.units := by
    have hlt := s.units.toNat_lt
    rw [← UInt16.toNat_inj, StoredStudent.toNat_units_built]
    show min 65535 (s.held.map fun key => (unitsIn sections key).toNat).sum = s.units.toNat
    omega
  have hcourses : (s.toStored.built sections).courses = s.courses := by
    show s.held.foldl (fun m key => m.insert key.course key.group) .empty = s.courses
    rw [held, List.foldl_map]
    exact OrderedMap.foldl_insert_entries s.courses
  show ({ s with units := _, courses := _ } : Student) = s
  exact congrArg₂ (fun units courses => { s with units, courses }) hunits hcourses

/-! ## Registries -/

namespace Registry

variable {r r' : Registry} {now : Instant} {request : Request} {records : List Record}
  {key : SectionKey} {ref : Catalog.Ref} {s : Section} {id : StudentId} {student : Student}

/-- The total of every student is the sum over the held sections. -/
def AllExact (r : Registry) : Prop :=
  ∀ id student, r.students.get? id = some student → r.Exact student

/-- A registry that can be written down and made again. -/
structure Storable (r : Registry) : Prop where
  consistent : r.Consistent
  canonical : r.catalog.Canonical
  sections : ∀ key, r.SectionAt (Section.Storable r.departments) key
  /-- No seat is idle in front of a waitlist. -/
  unidle : ∀ key, r.SectionAt (·.seats.IdleAtMost 0) key
  exact : r.AllExact

lemma mem_sections_toSnapshot (hr : r.Sound) {t : StoredSection} :
    t ∈ r.toSnapshot.sections ↔
      ∃ key ref s, r.catalog.lookup key = some (ref, s) ∧ s.toStored = t := by
  refine List.mem_map.trans ⟨?_, ?_⟩
  · rintro ⟨s, hs, rfl⟩
    obtain ⟨⟨ref, s⟩, found, rfl⟩ := Option.map_eq_some_iff.1 (hr.catalog.mem_sections.1 hs)
    exact ⟨_, ref, s, found, rfl⟩
  · rintro ⟨key, ref, s, found, rfl⟩
    obtain rfl := hr.catalog.key_of_lookup found
    exact ⟨s, hr.catalog.mem_sections.2 (by rw [found]; rfl), rfl⟩

lemma mem_students_toSnapshot {x : StoredStudent} :
    x ∈ r.toSnapshot.students ↔
      ∃ id student, r.students.get? id = some student ∧ student.toStored = x := by
  refine List.mem_map.trans ⟨?_, ?_⟩
  · rintro ⟨student, hstudent, rfl⟩
    obtain ⟨⟨id, student⟩, hentry, rfl⟩ := List.mem_map.1 hstudent
    exact ⟨id, student, OrderedMap.get?_eq_some_iff.2 hentry, rfl⟩
  · rintro ⟨id, student, known, rfl⟩
    have hentry := OrderedMap.get?_eq_some_iff.1 known
    exact ⟨student, List.mem_map.2 ⟨(id, student), hentry, rfl⟩, rfl⟩

/-- A storable registry is written down as a snapshot from which a registry can be built. -/
lemma Storable.wellFormed (hr : r.Storable) : r.toSnapshot.WellFormed := by
  have hsound := hr.consistent.sound
  have hplace := hr.consistent.agrees.hasPlace_iff
  refine ⟨?_, ?_, ?_, ?_, ?_, ?_, ?_, ?_⟩
  · show ((r.departments.entries.map _).map _).Nodup
    rw [List.map_map]
    exact r.departments.nodup_keys
  · show ((r.catalog.sections.map _).map _).Nodup
    rw [List.map_map]
    exact hr.canonical.nodup_keys
  · intro t ht
    obtain ⟨key, ref, s, found, rfl⟩ := (mem_sections_toSnapshot hsound).1 ht
    obtain ⟨name, hname⟩ := Option.isSome_iff_exists.1 (hr.sections key ref s found).listed
    exact ⟨⟨s.department, name⟩,
      List.mem_map.2 ⟨_, OrderedMap.get?_eq_some_iff.1 hname, rfl⟩, rfl⟩
  · intro t ht
    obtain ⟨key, ref, s, found, rfl⟩ := (mem_sections_toSnapshot hsound).1 ht
    exact Section.loadable_toStored (hr.sections key ref s found)
      (hr.consistent.agrees.orderly (seats_ledger found))
  · show ((r.students.values.map _).map _).Nodup
    have hids : (r.students.values.map Student.toStored).map (·.id) =
        r.students.entries.map (·.1) := by
      rw [OrderedMap.values, List.map_map, List.map_map]
      refine List.map_congr_left fun e he => ?_
      exact hsound.filed (OrderedMap.get?_eq_some_iff.2 he)
    rw [hids]
    exact r.students.nodup_keys
  · intro x hx
    obtain ⟨id, student, known, rfl⟩ := mem_students_toSnapshot.1 hx
    show (student.held.map _).Nodup
    rw [Student.held, List.map_map]
    exact student.courses.nodup_keys
  · intro x hx key hkey
    obtain ⟨id, student, known, rfl⟩ := mem_students_toSnapshot.1 hx
    obtain ⟨ref, s, found, hholds⟩ := hr.consistent.held_found known (mem_held.1 hkey)
    refine ⟨s.toStored, (mem_sections_toSnapshot hsound).2 ⟨_, ref, s, found, rfl⟩,
      hsound.catalog.key_of_lookup found, Section.mem_students_toStored.2 ?_⟩
    rw [← hsound.filed known] at hholds
    exact hholds
  · intro t ht id hid
    obtain ⟨key, ref, s, found, rfl⟩ := (mem_sections_toSnapshot hsound).1 ht
    have hheld := (hplace id key).1 ((Ledger.hasPlace_of_seats (seats_ledger found)).2
      (Section.mem_students_toStored.1 hid))
    obtain rfl := hsound.catalog.key_of_lookup found
    cases known : r.students.get? id with
    | none => simp [ledger, known] at hheld
    | some student =>
      rw [held_ledger known] at hheld
      exact ⟨student.toStored, mem_students_toSnapshot.2 ⟨id, student, known, rfl⟩,
        hsound.filed known, mem_held.2 hheld⟩

/-- The sections of a storable registry are made again under their keys. -/
lemma Storable.get?_sectionMap (hr : r.Storable) (key : SectionKey) :
    r.toSnapshot.sectionMap.get? key = (r.catalog.lookup key).map (·.2) := by
  have hsound := hr.consistent.sound
  have hkeys := hr.wellFormed.sections_nodup
  cases found : r.catalog.lookup key with
  | none =>
    rw [Option.map_none]
    refine OrderedMap.get?_foldl_insert_of_not_mem (fun hkey => ?_)
    obtain ⟨t, ht, rfl⟩ := List.mem_map.1 hkey
    obtain ⟨key', ref, s, found', rfl⟩ := (mem_sections_toSnapshot hsound).1 ht
    obtain rfl := hsound.catalog.key_of_lookup found'
    rw [show s.toStored.key = s.key from rfl, found'] at found
    cases found
  | some p =>
    obtain ⟨ref, s⟩ := p
    obtain rfl := hsound.catalog.key_of_lookup found
    have hmem : s.toStored ∈ r.toSnapshot.sections :=
      (mem_sections_toSnapshot hsound).2 ⟨_, ref, s, found, rfl⟩
    have hget : r.toSnapshot.sectionMap.get? s.toStored.key = some s.toStored.built :=
      OrderedMap.get?_foldl_insert_of_mem hkeys hmem
    rw [Section.built_toStored (hr.sections _ ref s found) (hr.unidle _ ref s found)] at hget
    exact hget

lemma unitsAt_eq_unitsIn {sections : OrderedMap SectionKey Section}
    (h : (r.catalog.lookup key).map (·.2) = sections.get? key) :
    r.unitsAt key = (unitsIn sections key).toNat := by
  unfold unitsAt unitsIn
  rw [← h]
  cases r.catalog.lookup key with
  | none => rfl
  | some p => rfl

lemma Storable.built_student (hr : r.Storable) (known : r.students.get? id = some student) :
    student.toStored.built r.toSnapshot.sectionMap = student := by
  refine Student.built_toStored ((hr.exact id student known).trans ?_)
  unfold unitsOf
  congr 2
  funext key
  exact unitsAt_eq_unitsIn (hr.get?_sectionMap key).symm

/-- A storable registry is the one that its snapshot makes. -/
lemma Storable.registry_toSnapshot (hr : r.Storable) : r.toSnapshot.registry = r := by
  have hdepartments : r.toSnapshot.departmentMap = r.departments := by
    show (r.departments.entries.map _).foldl _ _ = _
    rw [List.foldl_map]
    exact r.departments.foldl_insert_entries
  have hcatalog : Catalog.ofSections r.toSnapshot.sectionMap.values = r.catalog := by
    refine hr.wellFormed.canonical_registry.ext hr.canonical fun key => ?_
    rw [← hr.get?_sectionMap]
    exact hr.wellFormed.lookup_registry key
  have hstudents : r.toSnapshot.studentMap = r.students := by
    show ((r.students.entries.map _).map _).foldl _ _ = _
    rw [List.map_map, List.foldl_map]
    refine Eq.trans (List.foldl_ext _ (fun m e => m.insert e.1 e.2) _ fun m e he => ?_)
      r.students.foldl_insert_entries
    have known := OrderedMap.get?_eq_some_iff.2 he
    show m.insert e.2.id (e.2.toStored.built _) = m.insert e.1 e.2
    rw [hr.consistent.sound.filed known, hr.built_student known]
  unfold Snapshot.registry
  rw [hdepartments, hcatalog, hstudents]

/-- **A storable registry that is written down is made again.** -/
theorem Storable.build_toSnapshot (hr : r.Storable) : r.toSnapshot.build = .ok r :=
  build_eq_ok_iff.2 ⟨hr.wellFormed, hr.registry_toSnapshot.symm⟩

/-! ## Loaded registries -/

/-- No student holds more units than a word can count. -/
def Countable (r : Registry) : Prop :=
  ∀ id student, r.students.get? id = some student → r.unitsOf student ≤ 65535

instance (r : Registry) : Decidable r.Countable :=
  decidable_of_iff (∀ entry ∈ r.students.entries, r.unitsOf entry.2 ≤ 65535)
    ⟨fun h id student known => h (id, student) (OrderedMap.get?_eq_some_iff.1 known),
      fun h entry hentry => h entry.1 entry.2 (OrderedMap.get?_eq_some_iff.2 hentry)⟩

/-- The total of a student in a loaded registry is the sum over the held sections, or the largest
word if that is less. -/
lemma toNat_units_of_wellFormed {snapshot : Snapshot} (hs : snapshot.WellFormed)
    (known : snapshot.registry.students.get? id = some student) :
    student.units.toNat = min 65535 (snapshot.registry.unitsOf student) := by
  obtain ⟨x, hx, -, rfl⟩ := hs.studentMap_eq_some known
  have hheld := StoredStudent.held_built_perm (hs.courses_nodup x hx) snapshot.sectionMap
  rw [StoredStudent.toNat_units_built, unitsOf, (hheld.map _).sum_nat]
  congr 3
  funext key
  exact (unitsAt_eq_unitsIn (hs.lookup_registry key)).symm

/-- Every section of a built registry can be written down. -/
lemma storable_sections_of_build {snapshot : Snapshot} (built : snapshot.build = .ok r)
    (key : SectionKey) : r.SectionAt (Section.Storable r.departments) key := by
  intro ref s found
  obtain ⟨t, hloadable, listed, rfl⟩ := Snapshot.section_of_build built found
  refine ⟨listed, ?_, Seats.bounded_seatInOrder hloadable.nodup hloadable.room⟩
  obtain ⟨hours, hweekly⟩ := hloadable.hours
  have hhours : t.built.hours = hours := by
    unfold StoredSection.built
    rw [hweekly]
    rfl
  rw [hhours]
  exact StoredSection.toWeekly_of_weekly hweekly

/-- A registry that has been built can be written down, unless a student holds too many units. -/
lemma storable_of_build {snapshot : Snapshot} (built : snapshot.build = .ok r)
    (countable : r.Countable) : r.Storable := by
  obtain ⟨hs, hregistry⟩ := build_eq_ok_iff.1 built
  refine ⟨build_consistent built, ?_, storable_sections_of_build built, ?_, ?_⟩
  · rw [hregistry]
    exact hs.canonical_registry
  · exact fun key ref s found => (seats_of_build built key ref s found).2
  · intro id student known
    have hcount := countable id student known
    subst hregistry
    exact (toNat_units_of_wellFormed hs known).trans (Nat.min_eq_right hcount)

/-! ## Steps -/

lemma AllExact.effect (hexact : r.AllExact) (h : r.Effect now request records r')
    (hr : r.Consistent) (countable : r'.Countable) : r'.AllExact := by
  intro id student' known'
  rw [Exact, unitsOf_congr (h.unitsAt_eq hr)]
  obtain ⟨student, known, step⟩ := h.student_step hr.sound known'
  refine step.exact (hexact id student known) fun _ _ => ?_
  rw [← unitsOf_congr (h.unitsAt_eq hr)]
  exact Nat.lt_succ_of_le (countable id student' known')

lemma AllExact.setExamTime (hexact : r.AllExact) (hr : r.Sound) (ref : Catalog.Ref) (time : Int64) :
    (r.setExamTime ref time).AllExact := by
  intro id student known
  rw [students_setExamTime] at known
  rw [Exact, unitsOf_congr (unitsAt_setExamTime hr ref time)]
  exact hexact id student known

lemma canonical_setExamTime (hr : r.catalog.Canonical) (ref : Catalog.Ref) (time : Int64) :
    (r.setExamTime ref time).catalog.Canonical := by
  unfold Registry.setExamTime
  split
  · exact hr
  · rename_i s hget
    exact hr.set hget rfl

end Registry

/-- A step leaves a section that can be written down so. -/
lemma Section.Storable.step {departments : OrderedMap DepartmentId String} {s : Section}
    {request : Request} {records : List Record} {seats : Seats} (hs : s.Storable departments)
    (step : s.Step request records seats) : (s.withSeats seats).Storable departments :=
  ⟨hs.listed, hs.hours, step.bounded hs.bounded⟩

/-! ## Runs -/

namespace Office

variable {o : Office}

/-- A turn after which no student holds too many units leaves all totals exact. -/
lemma turn_allExact (hr : o.registry.Consistent) (hexact : o.registry.AllExact) (t : Turn)
    (countable : (o.turn t).2.registry.Countable) : (o.turn t).2.registry.AllExact := by
  rcases o.turn_cases t with heq | ⟨ref, time, -, heq⟩ | ⟨cancelled, request, -, -, heq⟩
  · rw [heq]
    exact hexact
  · rw [heq]
    exact hexact.setExamTime hr.sound ref time
  · rw [heq] at countable ⊢
    exact hexact.effect (o.handle_effect cancelled request) hr countable

/-- In a run in which no student ever holds too many units all totals stay exact. -/
lemma run_allExact (hr : o.registry.Consistent) (hexact : o.registry.AllExact) (turns : List Turn)
    (countable : ∀ earlier, earlier <+: turns → (o.run earlier).2.registry.Countable) :
    (o.run turns).2.registry.AllExact := by
  refine Registry.Consistent.run_keeps_while (P := Registry.AllExact) (H := Registry.Countable)
    (Q := fun _ => True) turns ?_ hr hexact (fun _ _ => trivial) countable
  intro o t _ hr hexact _ hcountable
  exact turn_allExact hr hexact t hcountable

/-- The departments stay as they are, and the catalog stays canonical. -/
lemma run_catalog (hc : o.registry.catalog.Canonical) (turns : List Turn) :
    (o.run turns).2.registry.catalog.Canonical ∧
      (o.run turns).2.registry.departments = o.registry.departments := by
  refine run_keeps (P := fun _ r => r.catalog.Canonical ∧ r.departments = o.registry.departments)
    ?_ ?_ turns [] ⟨hc, rfl⟩
  · rintro log now r request records r' ⟨hcanonical, hdepartments⟩ effect
    exact ⟨effect.catalog_keeps (fun hget hc => hc.set hget rfl) hcanonical,
      effect.departments_eq.trans hdepartments⟩
  · rintro log r ref time ⟨hcanonical, hdepartments⟩
    exact ⟨Registry.canonical_setExamTime hcanonical ref time,
      (r.departments_setExamTime ref time).trans hdepartments⟩

/-- A run in which nothing stalls and no student ever holds too many units leaves a registry that
can be written down. -/
lemma run_storable (hr : o.registry.Storable) (turns : List Turn)
    (reports : ∀ p ∈ (o.run turns).1, ∀ key, ¬ p.Stalled key)
    (countable : ∀ earlier, earlier <+: turns → (o.run earlier).2.registry.Countable) :
    (o.run turns).2.registry.Storable := by
  obtain ⟨hcanonical, hdepartments⟩ := run_catalog hr.canonical turns
  refine ⟨hr.consistent.run turns, hcanonical, fun key => ?_, fun key => ?_, ?_⟩
  · rw [hdepartments]
    exact run_keeps_section (fun _ step hs => hs.step step)
      (fun time hs => ⟨hs.listed, hs.hours, hs.bounded⟩) turns hr.consistent (hr.sections key)
  · exact run_idleAtMost_zero hr.consistent (hr.unidle key) turns fun p hp => reports p hp key
  · exact run_allExact hr.consistent hr.exact turns countable

/-- **The registry of a run is made again from what is written down of it**, if no enrollment by
staff has stopped after it took a seat, and no student has held more units than a word can count. -/
theorem run_reloads {snapshot : Snapshot} {r : Registry} (built : snapshot.build = .ok r)
    (clock : Instant) (outbox : Outbox) (turns : List Turn)
    (reports : ∀ p ∈ (run ⟨r, clock, outbox⟩ turns).1, ∀ key, ¬ p.Stalled key)
    (countable : ∀ earlier, earlier <+: turns →
      (run ⟨r, clock, outbox⟩ earlier).2.registry.Countable) :
    let o := (run ⟨r, clock, outbox⟩ turns).2
    o.registry.toSnapshot.build = .ok o.registry := by
  have hstart : r.Countable := countable [] (List.nil_prefix)
  exact (run_storable (o := ⟨r, clock, outbox⟩) (Registry.storable_of_build built hstart) turns
    reports countable).build_toSnapshot

/-- Student 1 leaves, student 2 moves up, staff give student 3 a second seat, and student 1 waits
for the group again. -/
theorem run_reloads_small :
    let key : SectionKey := ⟨⟨100⟩, ⟨1⟩⟩
    let turns : List Turn := [
      .call (.request false (.drop ⟨1⟩ ⟨100⟩)),
      .call (.request false (.staffEnroll ⟨3⟩ key)),
      .call (.request false (.enroll ⟨1⟩ key))]
    let o := (run ⟨.small, .epoch, .script .accepting⟩ turns).2
    o.registry.toSnapshot.sections.map (·.students) = [[⟨2⟩, ⟨3⟩, ⟨1⟩], []] ∧
      o.registry.toSnapshot.build = .ok o.registry := by
  intro key turns
  have hdeclined : ∀ p ∈ (run ⟨.small, .epoch, .script .accepting⟩ turns).1, p.declined = [] := by
    decide +kernel
  have hcountable : ∀ earlier ∈ turns.inits,
      (run ⟨.small, .epoch, .script .accepting⟩ earlier).2.registry.Countable := by
    decide +kernel
  refine ⟨by decide +kernel,
    run_reloads Snapshot.small_build .epoch (.script .accepting) turns ?_ ?_⟩
  · rintro p hp key ⟨department, capacity, student, -, hnext⟩
    rw [hdeclined p hp] at hnext
    cases hnext
  · exact fun earlier hearlier => hcountable earlier ((List.mem_inits _ _).2 hearlier)

/-- After an enrollment by staff that has stopped, the student who waits would get the seat. -/
example :
    let o := (run ⟨.small, .epoch, .script ⟨[.accept], .refuse .closed⟩⟩
      [.call (.request false (.staffEnroll ⟨3⟩ ⟨⟨100⟩, ⟨1⟩⟩))]).2
    o.registry.toSnapshot.build ≠ .ok o.registry := by
  decide +kernel

end Office

end CourseRegistration
