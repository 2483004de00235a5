import CourseRegistration.Proofs.Rules
import CourseRegistration.Proofs.UnitChecks
import Mathlib.Order.WellFounded

/-!
# Enrollments are decided by the rules

There are seven rules for a student who enrolls, looked at in turn.  `EnrollmentRule.Allows`
says what each asks for, in terms of the registry only, and `EnrollmentRule.Breach` how a broken one
is answered.  Enrolling goes through exactly if all of them allow it; otherwise the answer is that
of the first one that does not (`run_enroll_decided`).

The rules about the section say nothing where there is no section.  That there is one is a rule of
its own, which comes before them.
-/

namespace CourseRegistration

open Journal Check

/-! ## What the rules ask for -/

/-- The student gets a place: a registered seat if one is free, else the end of the waitlist.
Nothing else about the seats changes. -/
structure Seats.Joins (s : Seats) (x : StudentId) (s' : Seats) : Prop where
  /-- The student had no place before. -/
  new : s.holds x = false
  seated : s.registered.size < s.capacity.toNat →
    s' = { s with registered := s.registered.insert x }
  waits : s.capacity.toNat ≤ s.registered.size → s' = { s with waitlist := s.waitlist ++ [x] }

lemma Seats.joins_give {s : Seats} {x : StudentId} {place : Place} (hnew : s.holds x = false)
    (vacant : s.nextPlace = some place) : s.Joins x (s.give x place) := by
  rcases nextPlace_eq_some_iff.1 vacant with ⟨rfl, hroom⟩ | ⟨rfl, hfull, -⟩
  · exact ⟨hnew, fun _ => rfl, fun hfull => absurd hfull (Nat.not_le.2 hroom)⟩
  · exact ⟨hnew, fun hroom => absurd hfull (Nat.not_le.2 hroom), fun _ => rfl⟩

/-- The rules for a student who enrolls. -/
inductive EnrollmentRule where
  /-- The enrollment window is open. -/
  | window
  /-- The section exists. -/
  | listed
  /-- The section is open to the student. -/
  | lock
  /-- The student stays within the limit of units. -/
  | units
  /-- The student does not hold the course yet. -/
  | course
  /-- No held section gets in the way. -/
  | clashes
  /-- There is a place. -/
  | place
  deriving DecidableEq

namespace EnrollmentRule

/-- When the rule is looked at. -/
def step : EnrollmentRule → Nat
  | window => 0
  | listed => 1
  | lock => 2
  | units => 3
  | course => 4
  | clashes => 5
  | place => 6

variable (now : Instant) (r : Registry) (student : Student) (key : SectionKey)

/-- The rule lets the student enroll in the section. -/
def Allows : EnrollmentRule → Prop
  | window => student.windowOpen now = true
  | listed => ∃ ref wanted, r.catalog.lookup key = some (ref, wanted)
  | lock => r.SectionAt (fun wanted => wanted.lock.admits student.gender = true) key
  | units => r.SectionAt (fun wanted =>
      student.units.toNat + wanted.units.toNat ≤ student.maxUnits.toNat) key
  | course => student.courses.get? key.course = none
  | clashes => r.SectionAt (fun wanted => ∀ s ∈ r.sectionsAt student.held, s.Clear wanted) key
  | place => r.SectionAt (fun wanted =>
      wanted.seats.registered.size < wanted.seats.capacity.toNat ∨
      wanted.seats.waitlist.length < wanted.seats.reserve.toNat) key

/-- The rule is the first one that does not allow the enrollment. -/
def FirstBroken (rule : EnrollmentRule) : Prop :=
  ¬ rule.Allows now r student key ∧
    ∀ earlier : EnrollmentRule, earlier.step < rule.step → earlier.Allows now r student key

end EnrollmentRule

namespace Registry

/-- Of the held sections that are in conflict with the wanted one, `s` under `clash` is that of the
least course. -/
structure FirstClash (r : Registry) (student : Student) (wanted : Section) (clash : SectionKey)
    (s : Section) : Prop where
  held : clash ∈ student.held
  found : ∃ ref, r.catalog.lookup clash = some (ref, s)
  conflict : ¬ s.Clear wanted
  least : ∀ other ∈ student.held, ∀ ref t, r.catalog.lookup other = some (ref, t) →
    ¬ t.Clear wanted → clash.course.number.toInt ≤ other.course.number.toInt

end Registry

/-- How a broken rule is answered.  Of exams and hours that are both in conflict, the exams are
named. -/
inductive EnrollmentRule.Breach (r : Registry) (student : Student) (key : SectionKey) :
    EnrollmentRule → Failure → Prop
  | window : Breach r student key .window .outsideWindow
  | listed : Breach r student key .listed .unknownSection
  | lock : Breach r student key .lock .genderLocked
  | units : Breach r student key .units .unitLimitReached
  | course : Breach r student key .course .alreadyHeld
  | exams {ref wanted clash s} (found : r.catalog.lookup key = some (ref, wanted))
      (first : r.FirstClash student wanted clash s)
      (exams : examsClash s.examTime wanted.examTime = true) :
      Breach r student key .clashes (.examClash clash)
  | hours {ref wanted clash s} (found : r.catalog.lookup key = some (ref, wanted))
      (first : r.FirstClash student wanted clash s)
      (exams : examsClash s.examTime wanted.examTime = false) :
      Breach r student key .clashes (.hoursClash clash)
  | place : Breach r student key .place .noPlaceLeft

/-- The student has got a place in the section, holds it, and has its units on top; nothing else has
changed. -/
structure Registry.Enrolled (r : Registry) (id : StudentId) (student : Student) (key : SectionKey)
    (ref : Catalog.Ref) (wanted : Section) (r' : Registry) : Prop where
  sections : ∃ seats, wanted.seats.Joins id seats ∧ ∀ ref', r'.catalog.get? ref' =
    if ref' = ref then some (wanted.withSeats seats) else r.catalog.get? ref'
  students : ∃ units : UInt16, units.toNat = student.units.toNat + wanted.units.toNat ∧
    ∀ id', r'.students.get? id' =
      if id' = id then some (student.hold key units) else r.students.get? id'
  departments : r'.departments = r.departments

/-! ## Conflicts -/

namespace Registry

variable {r : Registry} {now : Instant} {id : StudentId} {key : SectionKey} {student : Student}
  {ref : Catalog.Ref} {wanted : Section} {keys : List SectionKey}

/-- The check for conflicts goes through if there are none. -/
lemma checkClashes_eq_ok (id : StudentId)
    (hfound : ∀ key ∈ keys, ∃ p, r.catalog.lookup key = some p)
    (clear : ∀ s ∈ r.sectionsAt keys, s.Clear wanted) :
    r.checkClashes id wanted keys = .ok () := by
  induction keys with
  | nil => rfl
  | cons key rest ih =>
    obtain ⟨⟨ref, s⟩, found⟩ := hfound key List.mem_cons_self
    rw [sectionsAt_cons found] at clear
    obtain ⟨hexams, hhours⟩ := clear s List.mem_cons_self
    have hrest := ih (fun key' hkey' => hfound key' (List.mem_cons_of_mem _ hkey'))
      fun t ht => clear t (List.mem_cons_of_mem _ ht)
    simp only [checkClashes, heldSection_eq_ok.2 found, ok_bind, hexams, hhours, hrest,
      Bool.false_eq_true, ↓reduceIte]

/-- Otherwise it ends at the first conflict of the list, exams before hours. -/
lemma checkClashes_of_clash (id : StudentId)
    (hfound : ∀ key ∈ keys, ∃ p, r.catalog.lookup key = some p)
    (clash : ¬ ∀ s ∈ r.sectionsAt keys, s.Clear wanted) :
    ∃ before key after ref s notes, keys = before ++ key :: after ∧
      (∀ t ∈ r.sectionsAt before, t.Clear wanted) ∧ r.catalog.lookup key = some (ref, s) ∧
      ¬ s.Clear wanted ∧ r.checkClashes id wanted keys = .error (.failed
        (if examsClash s.examTime wanted.examTime = true then .examClash key else .hoursClash key)
        notes) := by
  induction keys with
  | nil => exact absurd (fun s hs => absurd hs List.not_mem_nil) clash
  | cons key rest ih =>
    obtain ⟨⟨ref, s⟩, found⟩ := hfound key List.mem_cons_self
    have hnone : ∀ t ∈ r.sectionsAt [], t.Clear wanted := fun t ht => absurd ht List.not_mem_nil
    simp only [checkClashes, heldSection_eq_ok.2 found, ok_bind]
    by_cases hexams : examsClash s.examTime wanted.examTime = true
    · refine ⟨[], key, rest, ref, s, [.examClash id key wanted.key], rfl, hnone, found,
        fun h => ?_, ?_⟩
      · rw [h.1] at hexams
        cases hexams
      · rw [if_pos hexams, if_pos hexams]
    · by_cases hhours : s.hours.overlaps wanted.hours = true
      · refine ⟨[], key, rest, ref, s, [.hoursClash id key wanted.key], rfl, hnone, found,
          fun h => ?_, ?_⟩
        · rw [h.2] at hhours
          cases hhours
        · rw [if_neg hexams, if_pos hhours, if_neg hexams]
      · -- the first section is clear, so the conflict is further on
        have hclear : s.Clear wanted := ⟨Bool.eq_false_iff.2 hexams, Bool.eq_false_iff.2 hhours⟩
        rw [sectionsAt_cons found] at clash
        obtain ⟨before, key', after, ref', s', notes, rfl, hbefore, found', hconflict, hcheck⟩ :=
          ih (fun key' hkey' => hfound key' (List.mem_cons_of_mem _ hkey')) fun h =>
            clash (List.forall_mem_cons.2 ⟨hclear, h⟩)
        refine ⟨key :: before, key', after, ref', s', notes, rfl, ?_, found', hconflict, ?_⟩
        · rw [sectionsAt_cons found]
          exact List.forall_mem_cons.2 ⟨hclear, hbefore⟩
        · rw [if_neg hexams, if_neg hhours]
          exact hcheck

lemma sectionAt_iff {P : Section → Prop} {s : Section}
    (found : r.catalog.lookup key = some (ref, s)) : r.SectionAt P key ↔ P s := by
  refine ⟨fun h => h ref s found, fun h ref' s' found' => ?_⟩
  rw [found] at found'
  cases found'
  exact h

lemma held_ascending (student : Student) :
    student.held.Pairwise fun a b => a.course.number.toInt < b.course.number.toInt :=
  List.pairwise_map.2 student.courses.ascending

/-- The conflict that a student is told of is that with the least course. -/
lemma firstClash_of_split {before after : List SectionKey} {s : Section}
    (hsplit : student.held = before ++ key :: after)
    (hbefore : ∀ t ∈ r.sectionsAt before, t.Clear wanted)
    (found : r.catalog.lookup key = some (ref, s)) (conflict : ¬ s.Clear wanted) :
    r.FirstClash student wanted key s := by
  have hmem : ∀ key', key' ∈ student.held ↔ key' ∈ before ∨ key' = key ∨ key' ∈ after := by
    intro key'
    rw [hsplit, List.mem_append, List.mem_cons]
  refine ⟨(hmem key).2 (.inr (.inl rfl)), ⟨ref, found⟩, conflict, ?_⟩
  intro other hother ref' t found' hconflict
  rcases (hmem other).1 hother with hb | rfl | ha
  · exact absurd (hbefore t (mem_sectionsAt.2 ⟨other, hb, ref', found'⟩)) hconflict
  · exact Int.le_refl _
  · have hordered := held_ascending student
    rw [hsplit, List.pairwise_append, List.pairwise_cons] at hordered
    exact Int.le_of_lt (hordered.2.1.1 other ha)

lemma Consistent.held_lookup (hr : r.Consistent) (known : r.students.get? id = some student) :
    ∀ key ∈ student.held, ∃ p, r.catalog.lookup key = some p := by
  intro key hkey
  obtain ⟨ref, s, found, -⟩ := hr.held_found known (mem_held.1 hkey)
  exact ⟨(ref, s), found⟩

end Registry

/-! ## Decisions -/

namespace EnrollmentRule

open Registry

variable {r : Registry} {now : Instant} {id : StudentId} {key : SectionKey} {student : Student}
  {ref : Catalog.Ref} {wanted : Section} {rule : EnrollmentRule}

/-- The place that the rule about places allows is the one that the student gets. -/
lemma exists_place (hnew : wanted.seats.holds id = false)
    (h : wanted.seats.registered.size < wanted.seats.capacity.toNat ∨
      wanted.seats.waitlist.length < wanted.seats.reserve.toNat) :
    ∃ place, wanted.seats.nextPlace = some place ∧
      wanted.seats.Joins id (wanted.seats.give id place) ∧
      (place = .waitlisted ↔ wanted.seats.capacity.toNat ≤ wanted.seats.registered.size) := by
  by_cases hroom : wanted.seats.registered.size < wanted.seats.capacity.toNat
  · have hplace : wanted.seats.nextPlace = some .registered :=
      Seats.nextPlace_eq_some_iff.2 (.inl ⟨rfl, hroom⟩)
    exact ⟨_, hplace, Seats.joins_give hnew hplace, iff_of_false nofun (Nat.not_le.2 hroom)⟩
  · have hfull := Nat.not_lt.1 hroom
    have hplace : wanted.seats.nextPlace = some .waitlisted :=
      Seats.nextPlace_eq_some_iff.2 (.inr ⟨rfl, hfull, h.resolve_left hroom⟩)
    exact ⟨_, hplace, Seats.joins_give hnew hplace, iff_of_true rfl hfull⟩

/-- Everything up to the lock allows the enrollment; the sum is added up, and the rest is left. -/
lemma enroll_eq_of_admitted (known : r.students.get? id = some student)
    (fits : r.SectionAt (fun wanted => student.units.toNat + wanted.units.toNat ≤ 65535) key)
    (allowed : ∀ rule : EnrollmentRule, rule.step < 3 → rule.Allows now r student key) :
    ∃ ref wanted units, r.catalog.lookup key = some (ref, wanted) ∧
      units.toNat = student.units.toNat + wanted.units.toNat ∧
      r.enroll now id key = (do
        require (units ≤ student.maxUnits) .unitLimitReached
        require (!student.holdsCourse key.course) .alreadyHeld
        r.checkClashes id wanted student.held
        let plan ← wanted.grant id
        require plan.answer.isSome .noPlaceLeft
        return (r.atSection ref plan).settle (student.hold key units)) := by
  have opened : student.windowOpen now = true := allowed .window (by decide)
  obtain ⟨ref, wanted, found⟩ := allowed .listed (by decide)
  have admitted : wanted.lock.admits student.gender = true :=
    (sectionAt_iff found).1 (allowed .lock (by decide))
  obtain ⟨units, hsum⟩ : ∃ units, Student.addUnits? student.units wanted.units = some units :=
    ⟨_, if_pos (Nat.lt_succ_of_le ((sectionAt_iff found).1 fits))⟩
  refine ⟨ref, wanted, units, found, (Student.addUnits?_eq_some_iff.1 hsum).2, ?_⟩
  simp only [Registry.enroll, student_eq_ok.2 known, opened, offered_eq_ok.2 found, admitted,
    totalWith_eq_ok.2 hsum, require_true, ok_bind]

lemma within_of_allows {units : UInt16} (found : r.catalog.lookup key = some (ref, wanted))
    (hunits : units.toNat = student.units.toNat + wanted.units.toNat)
    (h : Allows now r student key .units) : decide (units ≤ student.maxUnits) = true := by
  rw [decide_eq_true_eq, UInt16.le_iff_toNat_le, hunits]
  exact (sectionAt_iff found).1 h

/-- Everything up to the course allows the enrollment; conflicts and the place are left. -/
lemma enroll_eq_of_fresh (known : r.students.get? id = some student)
    (fits : r.SectionAt (fun wanted => student.units.toNat + wanted.units.toNat ≤ 65535) key)
    (allowed : ∀ rule : EnrollmentRule, rule.step < 5 → rule.Allows now r student key) :
    ∃ ref wanted units, r.catalog.lookup key = some (ref, wanted) ∧
      units.toNat = student.units.toNat + wanted.units.toNat ∧
      r.enroll now id key = (do
        r.checkClashes id wanted student.held
        let plan ← wanted.grant id
        require plan.answer.isSome .noPlaceLeft
        return (r.atSection ref plan).settle (student.hold key units)) := by
  obtain ⟨ref, wanted, units, found, hunits, hrest⟩ := enroll_eq_of_admitted known fits
    fun rule hrule => allowed rule (Nat.lt_of_lt_of_le hrule (by decide))
  have within := within_of_allows found hunits (allowed .units (by decide))
  have fresh : (!student.holdsCourse key.course) = true :=
    not_holdsCourse_iff.2 (allowed .course (by decide))
  refine ⟨ref, wanted, units, found, hunits, ?_⟩
  simp only [hrest, within, fresh, require_true, ok_bind]

section

variable (hr : r.Consistent) (known : r.students.get? id = some student)
  (fits : r.SectionAt (fun wanted => student.units.toNat + wanted.units.toNat ≤ 65535) key)
include hr known fits

/-- **The first broken rule is what the enrollment is refused for.** -/
theorem FirstBroken.enroll_eq (h : rule.FirstBroken now r student key) :
    ∃ cause notes, rule.Breach r student key cause ∧
      r.enroll now id key = .error (.failed cause notes) := by
  obtain ⟨hbroken, hearlier⟩ := h
  cases rule with
  | window =>
    have hclosed : student.windowOpen now = false := Bool.eq_false_iff.2 hbroken
    refine ⟨_, [], .window, ?_⟩
    simp only [Registry.enroll, student_eq_ok.2 known, ok_bind, hclosed]
    rfl
  | listed =>
    have opened : student.windowOpen now = true := hearlier .window (by decide)
    have hnone : r.catalog.lookup key = none := by
      rw [Option.eq_none_iff_forall_ne_some]
      rintro ⟨ref, wanted⟩ found
      exact hbroken ⟨ref, wanted, found⟩
    refine ⟨_, [], .listed, ?_⟩
    simp only [Registry.enroll, student_eq_ok.2 known, opened, require_true, ok_bind,
      offered_eq_error.2 ⟨hnone, rfl⟩]
    rfl
  | lock =>
    have opened : student.windowOpen now = true := hearlier .window (by decide)
    obtain ⟨ref, wanted, found⟩ := hearlier .listed (by decide)
    have hlocked : wanted.lock.admits student.gender = false :=
      Bool.eq_false_iff.2 fun admitted => hbroken ((sectionAt_iff found).2 admitted)
    refine ⟨_, [], .lock, ?_⟩
    simp only [Registry.enroll, student_eq_ok.2 known, opened, offered_eq_ok.2 found, hlocked,
      require_true, ok_bind]
    rfl
  | units =>
    obtain ⟨ref, wanted, units, found, hunits, hrest⟩ := enroll_eq_of_admitted known fits hearlier
    have hbeyond : decide (units ≤ student.maxUnits) = false := by
      rw [decide_eq_false_iff_not, UInt16.le_iff_toNat_le, hunits]
      exact fun hwithin => hbroken ((sectionAt_iff found).2 hwithin)
    refine ⟨_, [], .units, ?_⟩
    rw [hrest, hbeyond]
    rfl
  | course =>
    obtain ⟨ref, wanted, units, found, hunits, hrest⟩ := enroll_eq_of_admitted known fits
      fun rule hrule => hearlier rule (Nat.lt_of_lt_of_le hrule (by decide))
    have within := within_of_allows found hunits (hearlier .units (by decide))
    have hheld : (!student.holdsCourse key.course) = false :=
      Bool.eq_false_iff.2 fun hfresh => hbroken (not_holdsCourse_iff.1 hfresh)
    refine ⟨_, [], .course, ?_⟩
    rw [hrest, within, hheld]
    rfl
  | clashes =>
    obtain ⟨ref, wanted, units, found, -, hrest⟩ := enroll_eq_of_fresh known fits hearlier
    have hclash : ¬ ∀ s ∈ r.sectionsAt student.held, s.Clear wanted :=
      fun clear => hbroken ((sectionAt_iff found).2 clear)
    obtain ⟨before, clash, after, ref', s, notes, hsplit, hbefore, found', hconflict, hcheck⟩ :=
      checkClashes_of_clash id (hr.held_lookup known) hclash
    have hfirst := firstClash_of_split hsplit hbefore found' hconflict
    rw [hrest, hcheck]
    cases hexams : examsClash s.examTime wanted.examTime with
    | true => exact ⟨_, notes, .exams found hfirst hexams, rfl⟩
    | false => exact ⟨_, notes, .hours found hfirst hexams, rfl⟩
  | place =>
    obtain ⟨ref, wanted, units, found, -, hrest⟩ := enroll_eq_of_fresh known fits
      fun rule hrule => hearlier rule (Nat.lt_trans hrule (by decide))
    have clear := checkClashes_eq_ok id (hr.held_lookup known)
      ((sectionAt_iff found).1 (hearlier .clashes (by decide)))
    have hnone := fun h => hbroken ((sectionAt_iff found).2 h)
    have hfull : wanted.seats.nextPlace = none := by
      rw [Seats.nextPlace, if_neg fun h => hnone (.inl h), if_neg fun h => hnone (.inr h)]
    refine ⟨_, [], .place, ?_⟩
    rw [hrest, clear, ok_bind, Section.grant, hfull]
    rfl

/-- **What all the rules allow comes down to one change**, which enrolls the student. -/
theorem enroll_eq_of_allowed (allowed : ∀ rule : EnrollmentRule, rule.Allows now r student key) :
    ∃ ref wanted r' event, r.catalog.lookup key = some (ref, wanted) ∧
      r.Enrolled id student key ref wanted r' ∧
      r.enroll now id key = .ok ⟨[⟨⟨wanted.department, .enroll id key
        (wanted.seats.capacity.toNat ≤ wanted.seats.registered.size)⟩, r', event⟩], ()⟩ := by
  obtain rfl := hr.sound.filed known
  obtain ⟨ref, wanted, units, found, hunits, hrest⟩ := enroll_eq_of_fresh known fits
    fun rule _ => allowed rule
  have clear := checkClashes_eq_ok student.id (hr.held_lookup known)
    ((sectionAt_iff found).1 (allowed .clashes))
  have fresh : student.courses.get? key.course = none := allowed .course
  have hnew : wanted.seats.holds student.id = false :=
    hr.not_holds known found (by rw [fresh]; nofun)
  obtain ⟨place, hplace, hjoins, hwaits⟩ :=
    exists_place hnew ((sectionAt_iff found).1 (allowed .place))
  have hreserved : decide (place = .waitlisted) =
      decide (wanted.seats.capacity.toNat ≤ wanted.seats.registered.size) :=
    decide_eq_decide.2 hwaits
  refine ⟨ref, wanted, (r.putSection ref (wanted.withSeats
    (wanted.seats.give student.id place))).putStudent (student.hold key units),
    .admitted student.id key place, found, ⟨⟨_, hjoins, ?_⟩, ⟨units, hunits, ?_⟩, rfl⟩, ?_⟩
  · exact fun ref' => Catalog.get?_set (Catalog.get?_of_lookup found) _ ref'
  · exact fun id => OrderedMap.get?_insert _ _ id _
  · rw [hrest, clear, ok_bind, Section.grant, hplace, hr.sound.catalog.key_of_lookup found,
      ← hreserved]
    rfl

end

/-- If some rule does not allow the enrollment, one of them is the first. -/
lemma exists_firstBroken (h : ¬ ∀ rule : EnrollmentRule, rule.Allows now r student key) :
    ∃ rule : EnrollmentRule, rule.FirstBroken now r student key := by
  obtain ⟨broken, hbroken⟩ := Classical.not_forall.1 h
  obtain ⟨rule, hrule, hmin⟩ := (measure step).wf.has_min
    {rule : EnrollmentRule | ¬ rule.Allows now r student key} ⟨broken, hbroken⟩
  refine ⟨rule, hrule, fun earlier hlt => ?_⟩
  by_contra hearlier
  exact hmin earlier hearlier hlt

end EnrollmentRule

/-! ## Calls -/

namespace Office

variable {o : Office} {request : Request}

/-- A single change whose record is taken is all that happens to the office. -/
lemma office_of_accepted (cancelled : Bool) {c : Change Registry} {answer : Answer}
    (accepts : ∀ record, (o.outbox.offer cancelled record).1 = .taken)
    (h : o.decide request = .ok ⟨[c], answer⟩) :
    (o.handle cancelled request).1.taken = [c.record] ∧
      (o.handle cancelled request).1.declined = [] ∧
      (o.handle cancelled request).2 =
        ⟨c.result, o.clock, (o.outbox.offer cancelled c.record).2⟩ := by
  obtain ⟨hoffice, htaken, hdeclined, -⟩ := handle_of_ok cancelled h
  rw [hoffice, htaken, hdeclined, carryOut_singleton _ (accepts c.record)]
  exact ⟨rfl, rfl, rfl⟩

/-- **An enrollment is decided by the rules.**  If the journal takes the record, it goes through
exactly if every rule allows it, and then the student has the place, the course and the units, and
nothing else changes.  Otherwise it is refused for the first rule that does not allow it, and
nothing changes at all. -/
theorem run_enroll_decided {snapshot : Snapshot} {r : Registry} (built : snapshot.build = .ok r)
    (clock : Instant) (outbox : Outbox) (turns : List Turn) (cancelled : Bool) (id : StudentId)
    (key : SectionKey) (student : Student) :
    let o := (run ⟨r, clock, outbox⟩ turns).2
    let report := (o.handle cancelled (.enroll id key)).1
    let o' := (o.handle cancelled (.enroll id key)).2
    o.registry.students.get? id = some student →
    o.registry.SectionAt (fun wanted => student.units.toNat + wanted.units.toNat ≤ 65535) key →
    (∀ record, (o.outbox.offer cancelled record).1 = .taken) →
    (report.outcome = .done .done ↔
      ∀ rule : EnrollmentRule, rule.Allows o.clock o.registry student key) ∧
    (report.outcome = .done .done →
      ∃ ref wanted, o.registry.catalog.lookup key = some (ref, wanted) ∧
        report.taken = [⟨wanted.department, .enroll id key
          (wanted.seats.capacity.toNat ≤ wanted.seats.registered.size)⟩] ∧
        report.declined = [] ∧ o.registry.Enrolled id student key ref wanted o'.registry ∧
        o'.clock = o.clock) ∧
    (report.outcome ≠ .done .done → ∃ (rule : EnrollmentRule) (cause : Failure),
      rule.FirstBroken o.clock o.registry student key ∧
      rule.Breach o.registry student key cause ∧ report.outcome = .failed cause ∧
      report.taken = [] ∧ report.declined = [] ∧ o' = o) := by
  intro o report o' known fits accepts
  have hr : o.registry.Consistent :=
    (Snapshot.build_consistent built).run (o := ⟨r, clock, outbox⟩) turns
  by_cases hall : ∀ rule : EnrollmentRule, rule.Allows o.clock o.registry student key
  · obtain ⟨ref, wanted, r', event, found, henrolled, henroll⟩ :=
      EnrollmentRule.enroll_eq_of_allowed hr known fits hall
    have hdecide : o.decide (.enroll id key) = .ok ⟨[⟨⟨wanted.department, .enroll id key
        (wanted.seats.capacity.toNat ≤ wanted.seats.registered.size)⟩, r', event⟩], .done⟩ := by
      rw [Office.decide, henroll]
      rfl
    obtain ⟨hdone, hregistry⟩ := handle_of_accepted cancelled accepts hdecide
    obtain ⟨htaken, hdeclined, hoffice⟩ := office_of_accepted cancelled accepts hdecide
    have hclock := congrArg Office.clock hoffice
    refine ⟨iff_of_true hdone hall, fun _ => ?_, fun h => absurd hdone h⟩
    exact ⟨ref, wanted, found, htaken, hdeclined, hregistry ▸ henrolled, hclock⟩
  · obtain ⟨rule, hfirst⟩ := EnrollmentRule.exists_firstBroken hall
    obtain ⟨cause, notes, hbreach, henroll⟩ := hfirst.enroll_eq hr known fits
    have hdecide := decide_enroll_eq_error.2 henroll
    obtain ⟨hfailed, hoffice⟩ := handle_of_failed cancelled hdecide
    obtain ⟨-, htaken, hdeclined⟩ := handle_of_error cancelled hdecide
    have hnot : (o.handle cancelled (.enroll id key)).1.outcome ≠ .done .done := by
      intro hdone
      rw [hfailed] at hdone
      cases hdone
    refine ⟨iff_of_false hnot hall, fun h => absurd h hnot, fun _ => ?_⟩
    exact ⟨rule, cause, hfirst, hbreach, hfailed, htaken, hdeclined, hoffice⟩

/-- Student 3 gets a place in group 2, but none in group 1, where all are taken. -/
theorem run_enroll_decided_small :
    ∃ student, Registry.small.students.get? ⟨3⟩ = some student ∧
      (∀ rule : EnrollmentRule, rule.Allows .epoch .small student ⟨⟨100⟩, ⟨2⟩⟩) ∧
      ∃ rule : EnrollmentRule, rule.FirstBroken .epoch .small student ⟨⟨100⟩, ⟨1⟩⟩ ∧
        rule.Breach .small student ⟨⟨100⟩, ⟨1⟩⟩ .noPlaceLeft := by
  obtain ⟨student, known, htotal⟩ : ∃ student,
      Registry.small.students.get? ⟨3⟩ = some student ∧ student.units = 0 := ⟨_, rfl, rfl⟩
  have fits : ∀ key, Registry.small.SectionAt
      (fun wanted => student.units.toNat + wanted.units.toNat ≤ 65535) key := by
    intro key ref wanted _
    have hzero : (0 : UInt16).toNat = 0 := rfl
    have hunits := wanted.units.toNat_lt
    rw [htotal]
    omega
  have decided := fun key => run_enroll_decided Snapshot.small_build .epoch (.script .accepting) []
    false ⟨3⟩ key student known (fits key) fun _ => rfl
  simp only [run] at decided
  have hdone : ((⟨.small, .epoch, .script .accepting⟩ : Office).handle false
      (.enroll ⟨3⟩ ⟨⟨100⟩, ⟨2⟩⟩)).1.outcome = .done .done := by decide +kernel
  have hrefused : ((⟨.small, .epoch, .script .accepting⟩ : Office).handle false
      (.enroll ⟨3⟩ ⟨⟨100⟩, ⟨1⟩⟩)).1.outcome = .failed .noPlaceLeft := by decide +kernel
  have hnot : ((⟨.small, .epoch, .script .accepting⟩ : Office).handle false
      (.enroll ⟨3⟩ ⟨⟨100⟩, ⟨1⟩⟩)).1.outcome ≠ .done .done := by
    intro hdone
    rw [hrefused] at hdone
    cases hdone
  obtain ⟨rule, cause, hfirst, hbreach, hcause, -⟩ := (decided ⟨⟨100⟩, ⟨1⟩⟩).2.2 hnot
  obtain rfl := Outcome.failed.inj (hrefused.symm.trans hcause)
  exact ⟨student, known, (decided ⟨⟨100⟩, ⟨2⟩⟩).1.1 hdone, rule, hfirst, hbreach⟩

end Office

end CourseRegistration
