import CourseRegistration.Proofs.UnitLedger

/-!
# What the checks of units come to

A student who enrolls must stay within a limit of units, and so must a student who changes to a
group with more units.  The sum is added up in one word before it is looked at.  This module says of
both workflows what the arithmetic can do to a call: refuse it, or abort it because the sum does not
fit the word.

A decision that does not go through ends at one of its checks.  The `_eq_error` lemmas say what that
leaves, check by check, and so which calls overflow and which are refused for the limit
(`run_unit_checks`).  Loading and enrollments by staff stop at the largest word, so there are
students for whom the next sum does not fit (`full_words_abort_calls`).
-/

namespace CourseRegistration

open Journal Check

namespace Registry

variable {r : Registry} {now : Instant} {id : StudentId} {key : SectionKey} {student : Student}
  {group : GroupId} {ref ref' : Catalog.Ref} {wanted source destination : Section}
  {halt : Halt} {notes : List Event} {keys : List SectionKey}

/-! ## How a check ends -/

lemma student_eq_error :
    r.student id = .error halt ↔
      r.students.get? id = none ∧ halt = .failed (.unknownStudent id) [] :=
  expect_eq_error

lemma offered_eq_error :
    r.offered key = .error halt ↔
      r.catalog.lookup key = none ∧ halt = .failed .unknownSection [] :=
  expect_eq_error

lemma heldSection_eq_error :
    r.heldSection id key = .error halt ↔
      r.catalog.lookup key = none ∧ halt = .failed (.fault (.sectionMissing id key)) [] :=
  expect_eq_error

lemma totalWith_eq_error {total : UInt16} {units : UInt8} :
    totalWith total units = .error halt ↔
      65535 < total.toNat + units.toNat ∧ halt = .overflow := by
  have hsize : UInt16.size = 65536 := rfl
  unfold totalWith Student.addUnits?
  split
  · rename_i hsum
    split_ifs at hsum with hfits
    exact iff_of_false nofun (by omega)
  · rename_i hsum
    split_ifs at hsum with hfits
    rw [Except.error.injEq, eq_comm]
    exact (and_iff_right (by omega)).symm

/-- A check for conflicts ends with a conflict or a fault. -/
lemma checkClashes_eq_error (h : r.checkClashes id wanted keys = .error halt) :
    ∃ key notes, halt = .failed (.examClash key) notes ∨ halt = .failed (.hoursClash key) notes ∨
      halt = .failed (.fault (.sectionMissing id key)) notes := by
  induction keys with
  | nil => cases h
  | cons key rest ih =>
    simp only [checkClashes, bind_eq_error, Prod.exists, heldSection_eq_error] at h
    rcases h with ⟨-, rfl⟩ | ⟨ref, held, -, h⟩
    · exact ⟨key, [], .inr (.inr rfl)⟩
    · split_ifs at h
      · cases h
        exact ⟨key, _, .inl rfl⟩
      · cases h
        exact ⟨key, _, .inr (.inl rfl)⟩
      · exact ih h

lemma checkClashes_ne_overflow : r.checkClashes id wanted keys ≠ .error .overflow := by
  intro h
  obtain ⟨_, _, h | h | h⟩ := checkClashes_eq_error h <;> cases h

lemma checkClashes_ne_unitLimit :
    r.checkClashes id wanted keys ≠ .error (.failed .unitLimitReached notes) := by
  intro h
  obtain ⟨_, _, h | h | h⟩ := checkClashes_eq_error h <;> cases h

lemma grant_ne_error : wanted.grant id ≠ .error halt := by
  unfold Section.grant
  split <;> nofun

lemma transfer_eq_error (h : source.transfer destination id = .error halt) :
    ∃ what, halt = .failed (.fault what) [] := by
  simp only [Section.transfer, bind_eq_error, require_eq_error] at h
  rcases h with ⟨-, rfl⟩ | ⟨-, -, ⟨-, rfl⟩ | ⟨-, -, h⟩⟩
  · exact ⟨_, rfl⟩
  · exact ⟨_, rfl⟩
  · split at h <;> cases h

lemma transfer_ne_overflow : source.transfer destination id ≠ .error .overflow := by
  intro h
  obtain ⟨_, h⟩ := transfer_eq_error h
  cases h

lemma transfer_ne_unitLimit :
    source.transfer destination id ≠ .error (.failed .unitLimitReached notes) := by
  intro h
  obtain ⟨_, h⟩ := transfer_eq_error h
  cases h

/-! ## Enrolling -/

/-- When the student enrolls, everything that is looked at before the units is in order. -/
structure EnrollsUpToUnits (now : Instant) (r : Registry) (id : StudentId) (key : SectionKey)
    (student : Student) (wanted : Section) : Prop where
  known : r.students.get? id = some student
  opened : student.windowOpen now = true
  found : ∃ ref, r.catalog.lookup key = some (ref, wanted)
  admitted : wanted.lock.admits student.gender = true

/-- Enrolling overflows exactly if the sum does, and that is added up before the limit is looked at.
-/
lemma enroll_eq_overflow_iff : r.enroll now id key = .error .overflow ↔
    ∃ student wanted, r.EnrollsUpToUnits now id key student wanted ∧
      65535 < student.units.toNat + wanted.units.toNat := by
  constructor
  · intro h
    simp only [Registry.enroll, bind_eq_error, require_eq_ok, student_eq_ok, student_eq_error,
      require_eq_error, offered_eq_ok, offered_eq_error, totalWith_eq_error, Prod.exists,
      checkClashes_ne_overflow, grant_ne_error, pure_ne_error, reduceCtorEq, and_false, and_true,
      false_or, or_false, exists_false, exists_const] at h
    obtain ⟨student, known, opened, ref, wanted, found, admitted, hsum⟩ := h
    exact ⟨student, wanted, ⟨known, opened, ⟨ref, found⟩, admitted⟩, hsum⟩
  · rintro ⟨student, wanted, ⟨known, opened, ⟨ref, found⟩, admitted⟩, hsum⟩
    simp only [Registry.enroll, student_eq_ok.2 known, opened, offered_eq_ok.2 found, admitted,
      require_true, ok_bind, totalWith_eq_error.2 ⟨hsum, rfl⟩]
    rfl

/-- Beyond the limit, a sum that fits its word is refused, unless something is refused before. -/
lemma enroll_beyond_limit (known : r.students.get? id = some student)
    (found : r.catalog.lookup key = some (ref, wanted))
    (beyond : student.maxUnits.toNat < student.units.toNat + wanted.units.toNat)
    (fits : student.units.toNat + wanted.units.toNat ≤ 65535) :
    r.enroll now id key = fail (
      if student.windowOpen now = false then .outsideWindow
      else if wanted.lock.admits student.gender = false then .genderLocked
      else .unitLimitReached) := by
  obtain ⟨sum, hsum⟩ : ∃ sum, Student.addUnits? student.units wanted.units = some sum :=
    ⟨_, if_pos (Nat.lt_succ_of_le fits)⟩
  have hlimit : decide (sum ≤ student.maxUnits) = false := by
    rw [decide_eq_false_iff_not, UInt16.le_iff_toNat_le, (Student.addUnits?_eq_some_iff.1 hsum).2]
    omega
  simp only [Registry.enroll, student_eq_ok.2 known, offered_eq_ok.2 found, ok_bind]
  cases student.windowOpen now with
  | false => rfl
  | true =>
    cases wanted.lock.admits student.gender with
    | false => rfl
    | true =>
      simp only [require_true, ok_bind, totalWith_eq_ok.2 hsum, hlimit]
      rfl

/-! ## Changing groups -/

/-- When the student changes groups, everything that is looked at before the units is in order. -/
structure SwitchesUpToUnits (now : Instant) (r : Registry) (id : StudentId) (key : SectionKey)
    (student : Student) (source destination : Section) : Prop where
  known : r.students.get? id = some student
  opened : student.windowOpen now = true
  able : student.actions ≠ 0
  holds : ∃ group, student.courses.get? key.course = some group ∧ group ≠ key.group ∧
    ∃ ref, r.catalog.lookup ⟨key.course, group⟩ = some (ref, source)
  found : ∃ ref, r.catalog.lookup key = some (ref, destination)
  admitted : destination.lock.admits student.gender = true

/-- A change of groups overflows exactly if the sum with both groups does. -/
lemma switchGroup_eq_overflow_iff : r.switchGroup now id key = .error .overflow ↔
    ∃ student source destination, r.SwitchesUpToUnits now id key student source destination ∧
      65535 < student.units.toNat + destination.units.toNat := by
  constructor
  · intro h
    simp only [Registry.switchGroup, bind_eq_error, require_eq_ok, student_eq_ok, student_eq_error,
      require_eq_error, expect_eq_ok, expect_eq_error, offered_eq_ok, offered_eq_error,
      heldSection_eq_ok, heldSection_eq_error, totalWith_eq_error, Prod.exists, bne_iff_ne,
      checkClashes_ne_overflow, transfer_ne_overflow, pure_ne_error, reduceCtorEq, and_false,
      and_true, false_or, or_false, exists_false, exists_const] at h
    obtain ⟨student, known, opened, able, group, holds, other, ref, source, found, ref',
      destination, found', admitted, hsum⟩ := h
    exact ⟨student, source, destination, ⟨known, opened, able, ⟨group, holds, other, ref, found⟩,
      ⟨ref', found'⟩, admitted⟩, hsum⟩
  · rintro ⟨student, source, destination, ⟨known, opened, able, ⟨group, holds, other, ref, found⟩,
      ⟨ref', found'⟩, admitted⟩, hsum⟩
    have hable : (student.actions != 0) = true := bne_iff_ne.2 able
    have hother : (group != key.group) = true := bne_iff_ne.2 other
    simp only [Registry.switchGroup, student_eq_ok.2 known, opened, hable, expect_eq_ok.2 holds,
      hother, heldSection_eq_ok.2 found, offered_eq_ok.2 found', admitted, require_true, ok_bind,
      totalWith_eq_error.2 ⟨hsum, rfl⟩]
    rfl

/-- The limit is no reason against a group with no more units than the one that is held. -/
lemma switchGroup_ne_unitLimit (known : r.students.get? id = some student)
    (holds : student.courses.get? key.course = some group)
    (found : r.catalog.lookup ⟨key.course, group⟩ = some (ref, source))
    (found' : r.catalog.lookup key = some (ref', destination))
    (fewer : destination.units ≤ source.units) :
    r.switchGroup now id key ≠ .error (.failed .unitLimitReached notes) := by
  intro h
  simp only [Registry.switchGroup, student_eq_ok.2 known, expect_eq_ok.2 holds,
    heldSection_eq_ok.2 found, offered_eq_ok.2 found', ok_bind, bind_eq_error, require_eq_ok,
    require_eq_error, totalWith_eq_error, decide_eq_true fewer, Bool.true_or, Bool.true_eq_false,
    checkClashes_ne_unitLimit, transfer_ne_unitLimit, pure_ne_error, Halt.failed.injEq,
    reduceCtorEq, false_and, and_false, or_false, exists_false] at h

end Registry

/-! ## Calls -/

namespace Report

variable {α : Type} {answer answer' : α} {stop : Option Stop} {cause : Failure}

lemma outcomeOf_eq_done (h : outcomeOf answer stop = .done answer') : stop = none := by
  rcases stop with _ | (_ | _)
  · rfl
  · cases h
  · cases h

lemma outcomeOf_ne_overflow : outcomeOf answer stop ≠ .overflow := by
  rcases stop with _ | (_ | _) <;> nofun

/-- Carrying out changes fails for no other reason than the journal. -/
lemma outcomeOf_eq_failed (h : outcomeOf answer stop = .failed cause) :
    ∃ why, cause = .journal why := by
  rcases stop with _ | (why | _)
  · cases h
  · cases h
    exact ⟨why, rfl⟩
  · cases h

end Report

namespace Office

open Registry

variable {o : Office} {request : Request} {id : StudentId} {key : SectionKey} {halt : Halt}
  {cause : Failure}

/-- A call overflows exactly if its decision does; carrying out adds nothing up. -/
lemma outcome_eq_overflow_iff (cancelled : Bool) :
    (o.handle cancelled request).1.outcome = .overflow ↔ o.decide request = .error .overflow := by
  obtain ⟨events, he⟩ := handle_eq o cancelled request
  rw [he]
  rcases o.decide request with (_ | _) | plan
  · exact iff_of_false nofun nofun
  · exact iff_of_true rfl rfl
  · exact iff_of_false Report.outcomeOf_ne_overflow nofun

/-- A call that fails for another reason than the journal is decided so. -/
lemma decide_of_outcome_failed {cancelled : Bool}
    (h : (o.handle cancelled request).1.outcome = .failed cause)
    (rule : ∀ why, cause ≠ .journal why) :
    ∃ notes, o.decide request = .error (.failed cause notes) := by
  obtain ⟨events, he⟩ := handle_eq o cancelled request
  rw [he] at h
  rcases hdecide : o.decide request with (⟨cause', notes⟩ | _) | plan
  · rw [hdecide] at h
    cases h
    exact ⟨notes, rfl⟩
  · rw [hdecide] at h
    cases h
  · rw [hdecide] at h
    obtain ⟨why, hcause⟩ := Report.outcomeOf_eq_failed h
    exact absurd hcause (rule why)

lemma decide_enroll_eq_error : o.decide (.enroll id key) = .error halt ↔
      o.registry.enroll o.clock id key = .error halt := by
  simp only [Office.decide, bind_eq_error, pure_ne_error, and_false, exists_false, or_false]

lemma decide_switchGroup_eq_error : o.decide (.switchGroup id key) = .error halt ↔
    o.registry.switchGroup o.clock id key = .error halt := by
  simp only [Office.decide, bind_eq_error, pure_ne_error, and_false, exists_false, or_false]

end Office

/-- The small snapshot, where no student may have more units than one section has. -/
def Snapshot.tight : Snapshot :=
  { small with students := small.students.map fun x => { x with maxUnits := 3 } }

/-- The registry of that snapshot. -/
def Registry.tight : Registry :=
  Snapshot.tight.build.toOption.getD default

lemma Snapshot.tight_build : tight.build = .ok .tight :=
  rfl

namespace Office

open Registry

/-- **A call is aborted over units exactly if the sum does not fit its word**, and that only happens
to students with more than 65280 units.  Otherwise an enrollment beyond the limit is refused, and a
change to a group with no more units is not refused for the limit. -/
theorem run_unit_checks {snapshot : Snapshot} {r : Registry} (built : snapshot.build = .ok r)
    (clock : Instant) (outbox : Outbox) (turns : List Turn) (cancelled : Bool) (id : StudentId)
    (key : SectionKey) :
    let o := (run ⟨r, clock, outbox⟩ turns).2
    let enrolled := (o.handle cancelled (.enroll id key)).1.outcome
    let switched := (o.handle cancelled (.switchGroup id key)).1.outcome
    (enrolled = .overflow ↔ ∃ student wanted,
      o.registry.EnrollsUpToUnits o.clock id key student wanted ∧
      65535 < student.units.toNat + wanted.units.toNat) ∧
    (switched = .overflow ↔ ∃ student source destination,
      o.registry.SwitchesUpToUnits o.clock id key student source destination ∧
      65535 < student.units.toNat + destination.units.toNat) ∧
    (∀ student, o.registry.students.get? id = some student →
      o.registry.unitsOf student ≤ 65280 → enrolled ≠ .overflow ∧ switched ≠ .overflow) ∧
    (∀ student ref wanted, o.registry.students.get? id = some student →
      o.registry.catalog.lookup key = some (ref, wanted) →
      student.maxUnits.toNat < student.units.toNat + wanted.units.toNat →
      student.units.toNat + wanted.units.toNat ≤ 65535 →
      enrolled = .failed (
        if student.windowOpen o.clock = false then .outsideWindow
        else if wanted.lock.admits student.gender = false then .genderLocked
        else .unitLimitReached)) ∧
    (∀ student group ref source ref' destination, o.registry.students.get? id = some student →
      student.courses.get? key.course = some group →
      o.registry.catalog.lookup ⟨key.course, group⟩ = some (ref, source) →
      o.registry.catalog.lookup key = some (ref', destination) →
      destination.units ≤ source.units → switched ≠ .failed .unitLimitReached) := by
  intro o enrolled switched
  have henroll : enrolled = .overflow ↔ _ :=
    (outcome_eq_overflow_iff cancelled).trans (decide_enroll_eq_error.trans enroll_eq_overflow_iff)
  have hswitch : switched = .overflow ↔ _ :=
    (outcome_eq_overflow_iff cancelled).trans
      (decide_switchGroup_eq_error.trans switchGroup_eq_overflow_iff)
  refine ⟨henroll, hswitch, ?_, ?_, ?_⟩
  · intro student known hsum
    have hr : r.Consistent := Snapshot.build_consistent built
    have hcovered : student.units.toNat ≤ o.registry.unitsOf student :=
      run_covered (o := ⟨r, clock, outbox⟩) hr (capped_of_build built).covered turns student known
    have hfits : ∀ units : UInt8, student.units.toNat + units.toNat ≤ 65535 := by
      intro units
      have hunits := units.toNat_lt
      omega
    constructor
    · rw [Ne, henroll]
      rintro ⟨student', wanted, ready, hover⟩
      obtain rfl : student = student' := Option.some.inj (known.symm.trans ready.known)
      exact Nat.not_lt.2 (hfits wanted.units) hover
    · rw [Ne, hswitch]
      rintro ⟨student', source, destination, ready, hover⟩
      obtain rfl : student = student' := Option.some.inj (known.symm.trans ready.known)
      exact Nat.not_lt.2 (hfits destination.units) hover
  · intro student ref wanted known found beyond fits
    have hdecide : o.decide (.enroll id key) = .error (.failed _ []) :=
      decide_enroll_eq_error.2 (enroll_beyond_limit known found beyond fits)
    exact (handle_of_failed cancelled hdecide).1
  · intro student group ref source ref' destination known holds found found' fewer hfailed
    obtain ⟨notes, hdecide⟩ := decide_of_outcome_failed hfailed nofun
    exact switchGroup_ne_unitLimit known holds found found' fewer
      (decide_switchGroup_eq_error.1 hdecide)

/-- Student 1 has 3 units and may have no more. -/
theorem run_unit_checks_tight :
    let o : Office := ⟨.tight, .epoch, .script .accepting⟩
    Snapshot.tight.build = .ok .tight ∧
    (o.handle false (.enroll ⟨1⟩ ⟨⟨100⟩, ⟨2⟩⟩)).1.outcome = .failed .unitLimitReached ∧
    (o.handle false (.switchGroup ⟨1⟩ ⟨⟨100⟩, ⟨2⟩⟩)).1.outcome ≠ .overflow ∧
    (o.handle false (.switchGroup ⟨1⟩ ⟨⟨100⟩, ⟨2⟩⟩)).1.outcome ≠ .failed .unitLimitReached := by
  obtain ⟨student, known, hopen, hsum, hmax, htotal, holds⟩ : ∃ student,
      Registry.tight.students.get? ⟨1⟩ = some student ∧ student.windowOpen .epoch = true ∧
      Registry.tight.unitsOf student = 3 ∧ student.maxUnits = 3 ∧ student.units = 3 ∧
      student.courses.get? ⟨100⟩ = some ⟨1⟩ :=
    ⟨_, rfl, by decide +kernel, by decide +kernel, rfl, rfl, rfl⟩
  obtain ⟨ref, source, found, hsource⟩ : ∃ ref s,
      Registry.tight.catalog.lookup ⟨⟨100⟩, ⟨1⟩⟩ = some (ref, s) ∧ s.units = 3 := ⟨_, _, rfl, rfl⟩
  obtain ⟨ref', wanted, found', hwanted, hlock⟩ : ∃ ref s,
      Registry.tight.catalog.lookup ⟨⟨100⟩, ⟨2⟩⟩ = some (ref, s) ∧ s.units = 3 ∧
      s.lock = .unlocked := ⟨_, _, rfl, rfl, rfl⟩
  obtain ⟨-, -, hsmall, hlimit, hgroup⟩ := run_unit_checks Snapshot.tight_build .epoch
    (.script .accepting) [] false ⟨1⟩ ⟨⟨100⟩, ⟨2⟩⟩
  simp only [run] at hsmall hlimit hgroup
  have hrefused := hlimit student ref' wanted known found' (by rw [hmax, htotal, hwanted]; decide)
    (by rw [htotal, hwanted]; decide)
  simp only [hopen, hlock, GenderLock.admits, Bool.true_eq_false, ↓reduceIte] at hrefused
  refine ⟨Snapshot.tight_build, hrefused, (hsmall student known ?_).2, ?_⟩
  · rw [hsum]
    decide
  · refine hgroup student ⟨1⟩ ref source ref' wanted known holds found found' ?_
    rw [hsource, hwanted]
    decide

/-- Student 1 has as many units as a word can count.  One more is not refused, and neither is a
change from 255 units to 5 carried out: both calls are aborted. -/
theorem full_words_abort_calls :
    let o : Office := ⟨(Snapshot.laden 257).registry, .epoch, .script .accepting⟩
    (Snapshot.laden 257).build = .ok o.registry ∧
    (∃ student wanted, o.registry.EnrollsUpToUnits o.clock ⟨1⟩ ⟨⟨-1⟩, ⟨1⟩⟩ student wanted ∧
      student.maxUnits.toNat < student.units.toNat + wanted.units.toNat) ∧
    (o.handle false (.enroll ⟨1⟩ ⟨⟨-1⟩, ⟨1⟩⟩)).1.outcome = .overflow ∧
    (∃ student source destination,
      o.registry.SwitchesUpToUnits o.clock ⟨1⟩ ⟨⟨0⟩, ⟨2⟩⟩ student source destination ∧
      destination.units < source.units) ∧
    (o.handle false (.switchGroup ⟨1⟩ ⟨⟨0⟩, ⟨2⟩⟩)).1.outcome = .overflow := by
  intro o
  have htotal : (Snapshot.ladenStudent 257).units.toNat = 65535 :=
    Snapshot.toNat_units_ladenStudent (by decide)
  have hfive : (5 : UInt8).toNat = 5 := rfl
  have hone : (1 : UInt8).toNat = 1 := rfl
  have henrolls : o.registry.EnrollsUpToUnits o.clock ⟨1⟩ ⟨⟨-1⟩, ⟨1⟩⟩ (Snapshot.ladenStudent 257)
      (Snapshot.light ⟨⟨-1⟩, ⟨1⟩⟩ 1).built :=
    ⟨Snapshot.known_ladenStudent 257, Snapshot.windowOpen_ladenStudent 257,
      Snapshot.lookup_spare (by decide), rfl⟩
  have hswitches : o.registry.SwitchesUpToUnits o.clock ⟨1⟩ ⟨⟨0⟩, ⟨2⟩⟩ (Snapshot.ladenStudent 257)
      (Snapshot.heavy 0).built (Snapshot.light ⟨⟨0⟩, ⟨2⟩⟩ 5).built :=
    ⟨Snapshot.known_ladenStudent 257, Snapshot.windowOpen_ladenStudent 257, by decide,
      ⟨⟨1⟩, Snapshot.holds_ladenStudent (i := 0) (by decide) (by decide), by decide,
        Snapshot.lookup_heavy (i := 0) (by decide) (by decide)⟩,
      Snapshot.lookup_other (by decide), rfl⟩
  have hbeyond : 65535 < (Snapshot.ladenStudent 257).units.toNat +
      (Snapshot.light ⟨⟨-1⟩, ⟨1⟩⟩ 1).built.units.toNat := by
    rw [Snapshot.units_light]
    omega
  have hbeyond' : 65535 < (Snapshot.ladenStudent 257).units.toNat +
      (Snapshot.light ⟨⟨0⟩, ⟨2⟩⟩ 5).built.units.toNat := by
    rw [Snapshot.units_light]
    omega
  refine ⟨Snapshot.build_laden (by decide), ⟨_, _, henrolls, ?_⟩, ?_, ⟨_, _, _, hswitches, ?_⟩, ?_⟩
  · exact Nat.lt_of_le_of_lt (Nat.le_of_lt_succ (UInt16.toNat_lt _)) hbeyond
  · exact (outcome_eq_overflow_iff false).2
      (decide_enroll_eq_error.2 (enroll_eq_overflow_iff.2 ⟨_, _, henrolls, hbeyond⟩))
  · rw [Snapshot.units_light, Snapshot.units_heavy]
    decide
  · exact (outcome_eq_overflow_iff false).2
      (decide_switchGroup_eq_error.2 (switchGroup_eq_overflow_iff.2 ⟨_, _, _, hswitches, hbeyond'⟩))

end Office

end CourseRegistration
