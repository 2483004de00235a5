import CourseRegistration.Proofs.Snapshot
import CourseRegistration.Proofs.Units

/-!
# What the rules keep

A student who is `Legal` holds sections that do not get in each other's way, that are open to the
student, and that together stay within the student's limit of units.  Enrolling checks a new section
against all that the student holds; changing groups checks the new group against all but the old
one, and looks at the limit only if the units grow.  Both leave a legal student legal, since a
conflict is one for both sides (`Section.Clear.symm`).

`run_legal` states this for runs: where all students are legal they stay so, as long as staff enroll
nobody and no exam is moved.
-/

namespace CourseRegistration

open Journal Check

/-! ## Conflicts -/

/-- Two sections that one student can hold: their exams are not at the same time, and neither are
their hours. -/
def Section.Clear (s t : Section) : Prop :=
  examsClash s.examTime t.examTime = false ∧ s.hours.overlaps t.hours = false

instance (s t : Section) : Decidable (s.Clear t) :=
  inferInstanceAs (Decidable (_ ∧ _))

lemma examsClash_comm (a b : Int64) : examsClash a b = examsClash b a := by
  rw [Bool.eq_iff_iff, examsClash_iff, examsClash_iff, and_left_comm, @eq_comm _ a b]

lemma WeeklyHours.overlaps_comm (v w : WeeklyHours) : v.overlaps w = w.overlaps v := by
  unfold overlaps
  rw [Bool.and_comm (decide (v.start < w.finish)), UInt32.and_comm]

lemma Section.Clear.symm {s t : Section} (h : s.Clear t) : t.Clear s :=
  ⟨(examsClash_comm _ _).trans h.1, (WeeklyHours.overlaps_comm _ _).trans h.2⟩

namespace Registry

/-- The sections under the keys, as far as there are any. -/
def sectionsAt (r : Registry) (keys : List SectionKey) : List Section :=
  keys.filterMap fun key => (r.catalog.lookup key).map (·.2)

/-- A student of the category can hold the sections under the keys together. -/
structure Compatible (r : Registry) (gender : Gender) (keys : List SectionKey) : Prop where
  /-- No two of the sections are in conflict. -/
  apart : (r.sectionsAt keys).Pairwise Section.Clear
  /-- Every one of them is open to the category. -/
  admitted : ∀ s ∈ r.sectionsAt keys, s.lock.admits gender = true

/-- What a student holds obeys the rules. -/
structure Legal (r : Registry) (student : Student) : Prop
    extends r.Compatible student.gender student.held where
  /-- The total of units is the sum over the held sections. -/
  exact : r.Exact student
  /-- The total is within the student's limit. -/
  within : student.units ≤ student.maxUnits

instance (r : Registry) (gender : Gender) (keys : List SectionKey) :
    Decidable (r.Compatible gender keys) :=
  decidable_of_iff ((r.sectionsAt keys).Pairwise Section.Clear ∧
      ∀ s ∈ r.sectionsAt keys, s.lock.admits gender = true)
    ⟨fun h => ⟨h.1, h.2⟩, fun h => ⟨h.apart, h.admitted⟩⟩

instance (r : Registry) (student : Student) : Decidable (r.Legal student) :=
  decidable_of_iff (r.Compatible student.gender student.held ∧
      student.units.toNat = r.unitsOf student ∧ student.units ≤ student.maxUnits)
    ⟨fun h => ⟨h.1, h.2.1, h.2.2⟩, fun h => ⟨h.toCompatible, h.exact, h.within⟩⟩

/-- Every student is legal. -/
def AllLegal (r : Registry) : Prop :=
  ∀ id student, r.students.get? id = some student → r.Legal student

instance (r : Registry) : Decidable r.AllLegal :=
  decidable_of_iff (∀ entry ∈ r.students.entries, r.Legal entry.2)
    ⟨fun h id student known => h (id, student) (OrderedMap.get?_eq_some_iff.1 known),
      fun h entry hentry => h entry.1 entry.2 (OrderedMap.get?_eq_some_iff.2 hentry)⟩

variable {r r' : Registry} {now : Instant} {request : Request} {records : List Record}
  {id : StudentId} {key : SectionKey} {keys keys' : List SectionKey} {ref : Catalog.Ref}
  {s wanted : Section} {student student' : Student} {gender : Gender}

/-! ## Sections together -/

lemma sectionsAt_cons (found : r.catalog.lookup key = some (ref, s)) (keys : List SectionKey) :
    r.sectionsAt (key :: keys) = s :: r.sectionsAt keys := by
  simp [sectionsAt, found]

lemma mem_sectionsAt :
    s ∈ r.sectionsAt keys ↔ ∃ key ∈ keys, ∃ ref, r.catalog.lookup key = some (ref, s) := by
  simp [sectionsAt]

/-- Only a section that is clear of all those checked passes the check for conflicts. -/
lemma clear_of_checkClashes (h : r.checkClashes id wanted keys = .ok ()) :
    ∀ s ∈ r.sectionsAt keys, s.Clear wanted := by
  induction keys with
  | nil => exact fun s hs => absurd hs List.not_mem_nil
  | cons key rest ih =>
    simp only [checkClashes, bind_eq_ok, Prod.exists, heldSection_eq_ok] at h
    obtain ⟨ref, held, found, h⟩ := h
    split_ifs at h with hexams hhours
    rw [sectionsAt_cons found]
    intro s hs
    rcases List.mem_cons.1 hs with rfl | hs
    · exact ⟨by simpa using hexams, by simpa using hhours⟩
    · exact ih h s hs

/-- Conflicts do not depend on the order of the sections. -/
lemma Compatible.perm (h : r.Compatible gender keys) (hperm : keys.Perm keys') :
    r.Compatible gender keys' := by
  have hsections : (r.sectionsAt keys).Perm (r.sectionsAt keys') := hperm.filterMap _
  refine ⟨(hsections.pairwise_iff Section.Clear.symm).1 h.apart, fun s hs => ?_⟩
  exact h.admitted s (hsections.mem_iff.2 hs)

lemma Compatible.cons (h : r.Compatible gender keys)
    (found : r.catalog.lookup key = some (ref, wanted))
    (admitted : wanted.lock.admits gender = true)
    (clear : ∀ s ∈ r.sectionsAt keys, s.Clear wanted) : r.Compatible gender (key :: keys) := by
  constructor
  · rw [sectionsAt_cons found, List.pairwise_cons]
    exact ⟨fun s hs => (clear s hs).symm, h.apart⟩
  · rw [sectionsAt_cons found]
    intro s hs
    rcases List.mem_cons.1 hs with rfl | hs
    · exact admitted
    · exact h.admitted s hs

lemma Compatible.of_cons (h : r.Compatible gender (key :: keys)) : r.Compatible gender keys := by
  have hsublist : (r.sectionsAt keys).Sublist (r.sectionsAt (key :: keys)) :=
    (List.sublist_cons_self key keys).filterMap _
  exact ⟨h.apart.sublist hsublist, fun s hs => h.admitted s (hsublist.subset hs)⟩

/-- Other seats make no difference to conflicts and locks. -/
lemma Compatible.of_stepAt (h : r.Compatible gender keys)
    (step : ∀ key, r.StepAt request records r' key) : r'.Compatible gender keys := by
  have old : ∀ {key s'}, (r'.catalog.lookup key).map (·.2) = some s' →
      ∃ s seats, (r.catalog.lookup key).map (·.2) = some s ∧ s' = s.withSeats seats := by
    intro key s' hs'
    rcases step key with ⟨-, hnone⟩ | ⟨ref, s, seats, found, found', -⟩
    · rw [hnone] at hs'
      cases hs'
    · rw [found'] at hs'
      cases hs'
      exact ⟨s, seats, by rw [found]; rfl, rfl⟩
  constructor
  · refine List.pairwise_filterMap.2 ((List.pairwise_filterMap.1 h.apart).imp ?_)
    intro key key' hclear s' hs' t' ht'
    obtain ⟨s, _, hs, rfl⟩ := old hs'
    obtain ⟨t, _, ht, rfl⟩ := old ht'
    exact hclear s hs t ht
  · intro s' hs'
    obtain ⟨key, hkey, ref, found'⟩ := mem_sectionsAt.1 hs'
    obtain ⟨s, _, hs, rfl⟩ := old (by rw [found']; rfl)
    exact h.admitted s (List.mem_filterMap.2 ⟨key, hkey, hs⟩)

/-! ## Steps -/

lemma mem_held_letGo {course : CourseId} {units : UInt8} :
    key ∈ (student.letGo course units).held ↔ key ∈ student.held ∧ key.course ≠ course := by
  rw [mem_held, mem_held, student.get?_letGo]
  split_ifs with hcourse
  · simp [hcourse]
  · simp [hcourse]

/-- A course less leaves the other sections compatible. -/
lemma Compatible.letGo {course : CourseId} {group : GroupId}
    (h : r.Compatible student.gender student.held)
    (holds : student.courses.get? course = some group) (units : UInt8) :
    r.Compatible student.gender (student.letGo course units).held :=
  (h.perm (Student.held_letGo_perm holds units)).of_cons

/-- In a course that is held already, another group takes the place of the old one. -/
lemma Compatible.switchGroup {group : GroupId}
    (h : r.Compatible student.gender student.held)
    (holds : student.courses.get? key.course = some group)
    (found : r.catalog.lookup key = some (ref, wanted))
    (admitted : wanted.lock.admits student.gender = true)
    (clear : ∀ s ∈ r.sectionsAt (student.held.filter fun k => k.course != key.course),
      s.Clear wanted) (units : UInt16) :
    r.Compatible student.gender (student.hold key units).held := by
  have hleft : r.Compatible student.gender (student.letGo key.course 0).held := h.letGo holds 0
  have hclear : ∀ s ∈ r.sectionsAt (student.letGo key.course 0).held, s.Clear wanted := by
    intro s hs
    obtain ⟨key', hkey', hfound⟩ := mem_sectionsAt.1 hs
    obtain ⟨hheld, hcourse⟩ := mem_held_letGo.1 hkey'
    refine clear s (mem_sectionsAt.2 ⟨key', List.mem_filter.2 ⟨hheld, ?_⟩, hfound⟩)
    exact bne_iff_ne.2 hcourse
  have hfresh : (student.letGo key.course 0).courses.get? key.course = none := by
    rw [student.get?_letGo, if_pos rfl]
  rw [← student.held_hold_letGo key units 0]
  exact (hleft.cons found admitted hclear).perm (Student.held_hold_perm hfresh units).symm

/-- A legal student may let go of a course. -/
lemma Legal.letGo {course : CourseId} {group : GroupId} {units : UInt8} (hs : r.Legal student)
    (holds : student.courses.get? course = some group)
    (exact : r.Exact (student.letGo course units)) : r.Legal (student.letGo course units) := by
  refine ⟨hs.toCompatible.letGo holds units, exact, ?_⟩
  have hwithin := UInt16.le_iff_toNat_le.1 hs.within
  rw [UInt16.le_iff_toNat_le]
  show (Student.subUnits student.units units).toNat ≤ student.maxUnits.toNat
  rw [Student.toNat_subUnits]
  omega

/-- What a request does to the sections leaves a legal student legal. -/
lemma Legal.of_effect (hs : r.Legal student) (h : r.Effect now request records r')
    (hr : r.Consistent) : r'.Legal student := by
  refine ⟨hs.toCompatible.of_stepAt (h.stepAt hr), ?_, hs.within⟩
  rw [Exact, unitsOf_congr (h.unitsAt_eq hr)]
  exact hs.exact

end Registry

/-- **Every step that staff do not force leaves a legal student legal.** -/
theorem Student.Step.legal {r : Registry} {student student' : Student} {request : Request}
    (h : student.Step r request student') (hs : r.Legal student)
    (ordinary : ∀ key, request ≠ .staffEnroll student.id key) : r.Legal student' := by
  have hexact : r.Exact student' := h.exact hs.exact fun key hkey => absurd hkey (ordinary key)
  cases h with
  | stay => exact hs
  | enroll found admitted sum within fresh clear =>
    refine ⟨?_, hexact, within⟩
    exact (hs.toCompatible.cons found admitted (Registry.clear_of_checkClashes clear)).perm
      (Student.held_hold_perm fresh _).symm
  | drop holds found =>
    obtain ⟨hcompatible, hexact, hwithin⟩ := hs.letGo holds hexact
    exact ⟨hcompatible, hexact, hwithin⟩
  | @switchGroup key group ref source ref' destination total holds other found found' admitted sum
      within clear =>
    refine ⟨hs.toCompatible.switchGroup holds found' admitted (Registry.clear_of_checkClashes clear)
      (subUnits total source.units), hexact, ?_⟩
    show subUnits total source.units ≤ student.maxUnits
    rcases within with hfewer | hwithin
    · -- the total does not grow, so the limit need not be looked at
      obtain ⟨-, htotal⟩ := addUnits?_eq_some_iff.1 sum
      have hwithin := UInt16.le_iff_toNat_le.1 hs.within
      rw [UInt8.le_iff_toNat_le] at hfewer
      rw [UInt16.le_iff_toNat_le, toNat_subUnits]
      omega
    · exact hwithin
  | staffEnroll => exact absurd rfl (ordinary _)
  | staffDrop holds found => exact hs.letGo holds hexact

/-! ## Runs -/

/-- Whether the turn sets the rules aside: staff enroll a student whatever the rules say, or the
exam of a section is moved that students hold already. -/
def Turn.overrides : Turn → Bool
  | .call (.request _ (.staffEnroll ..)) => true
  | .examTime .. => true
  | _ => false

namespace Registry

variable {r r' : Registry} {now : Instant} {request : Request} {records : List Record}

lemma AllLegal.effect (hall : r.AllLegal) (h : r.Effect now request records r')
    (hr : r.Consistent) (ordinary : ∀ id key, request ≠ .staffEnroll id key) : r'.AllLegal := by
  intro id student' known'
  obtain ⟨student, known, step⟩ := h.student_step hr.sound known'
  exact (step.legal (hall id student known) (ordinary student.id)).of_effect h hr

end Registry

namespace Office

/-- One turn that does not set the rules aside leaves all students legal. -/
lemma turn_allLegal {o : Office} (hr : o.registry.Consistent) (hall : o.registry.AllLegal)
    (t : Turn) (ordinary : t.overrides = false) : (o.turn t).2.registry.AllLegal := by
  rcases o.turn_cases t with heq | ⟨ref, time, rfl, -⟩ | ⟨cancelled, request, rfl, -, heq⟩
  · rw [heq]
    exact hall
  · cases ordinary
  · rw [heq]
    refine hall.effect (o.handle_effect cancelled request) hr ?_
    rintro id key rfl
    cases ordinary

/-- **Where all students are legal they stay legal**, in every run in which staff enroll nobody and
no exam is moved, whatever the clock and the outbox do. -/
theorem run_legal {snapshot : Snapshot} {r : Registry} (built : snapshot.build = .ok r)
    (legal : r.AllLegal) (clock : Instant) (outbox : Outbox) (turns : List Turn)
    (ordinary : ∀ t ∈ turns, t.overrides = false) :
    let (_, o) := run ⟨r, clock, outbox⟩ turns
    o.registry.AllLegal := by
  have hr : r.Consistent := Snapshot.build_consistent built
  refine Registry.Consistent.run_keeps_while (P := Registry.AllLegal) (H := fun _ => True)
    (Q := fun _ => True) turns ?_ (o := ⟨r, clock, outbox⟩) hr legal (fun _ _ => trivial)
    fun _ _ => trivial
  intro o t ht hr hall _ _
  exact turn_allLegal hr hall t (ordinary t ht)

/-- Student 1 leaves, student 2 moves up and then on to the other group, and student 3 enrolls while
the journal is closed. -/
theorem run_legal_small :
    let turns : List Turn := [
      .call (.request false (.drop ⟨1⟩ ⟨100⟩)),
      .call (.request false (.switchGroup ⟨2⟩ ⟨⟨100⟩, ⟨2⟩⟩)),
      .outbox (.script ⟨[], .refuse .closed⟩),
      .call (.request false (.enroll ⟨3⟩ ⟨⟨100⟩, ⟨1⟩⟩))]
    let (_, o) := run ⟨.small, .epoch, .script .accepting⟩ turns
    (∀ t ∈ turns, t.overrides = false) ∧ o.registry.AllLegal := by
  intro turns
  have hordinary : ∀ t ∈ turns, t.overrides = false := by decide
  exact ⟨hordinary, run_legal Snapshot.small_build (by decide +kernel) .epoch (.script .accepting)
    turns hordinary⟩

end Office

end CourseRegistration
