import CourseRegistration.Proofs.Reload
import CourseRegistration.Proofs.Switching

/-!
# What a total of units can be relied on for

A student's total is one word: units are added to it up to the largest word, and taken from it down
to zero.  `Student.Step.balance` says what a step does to the total and to the exact sum alike, and
everything else follows by arithmetic: the total never exceeds the sum, and while no sum so far has
been too large for a word, it is the sum, cut off at the largest word (`run_units_ledger`).

A sum that was too large once leaves a total that is too small for good.  `Snapshot.laden` is a
snapshot in which a student holds as many units as one likes.
-/

namespace CourseRegistration

open Journal

/-! ## Steps -/

/-- **What a step does to the total and to the sum**: units are gained and units are lost, and the
total misses some only if more are gained than a word can count, while none are lost. -/
theorem Student.Step.balance {r : Registry} {s s' : Student} {request : Request}
    (h : s.Step r request s') :
    ∃ gained lost, lost ≤ r.unitsOf s ∧ r.unitsOf s' + lost = r.unitsOf s + gained ∧
      s'.units.toNat = min 65535 (s.units.toNat + gained) - lost ∧
      (lost = 0 ∨ s.units.toNat + gained ≤ 65535) := by
  have hlt : s.units.toNat < 65536 := s.units.toNat_lt
  cases h with
  | stay => exact ⟨0, 0, Nat.zero_le _, rfl, by omega, .inl rfl⟩
  | @enroll key ref wanted units found _ sum _ fresh =>
    obtain ⟨hfits, hsum⟩ := addUnits?_eq_some_iff.1 sum
    have hheld := r.unitsOf_hold fresh units
    rw [Registry.unitsAt_eq found] at hheld
    rw [UInt16.size] at hfits
    refine ⟨wanted.units.toNat, 0, Nat.zero_le _, by omega, ?_, .inl rfl⟩
    show units.toNat = _
    omega
  | @drop course group ref held holds found =>
    have hleft := r.unitsOf_letGo holds held.units
    rw [Registry.unitsAt_eq found] at hleft
    refine ⟨0, held.units.toNat, by omega, ?_, ?_, .inr (by omega)⟩
    · rw [Registry.unitsOf_spendAction]
      omega
    · show (subUnits s.units held.units).toNat = _
      rw [toNat_subUnits]
      omega
  | @switchGroup key group ref source ref' destination total holds _ found found' _ sum =>
    obtain ⟨hfits, hsum⟩ := addUnits?_eq_some_iff.1 sum
    have hover := r.unitsOf_hold_over holds (subUnits total source.units)
    have hleft := r.unitsOf_letGo holds source.units
    rw [Registry.unitsAt_eq found] at hover hleft
    rw [Registry.unitsAt_eq found'] at hover
    rw [UInt16.size] at hfits
    refine ⟨destination.units.toNat, source.units.toNat, by omega, ?_, ?_, .inr (by omega)⟩
    · rw [Registry.unitsOf_spendAction]
      omega
    · show (subUnits total source.units).toNat = _
      rw [toNat_subUnits]
      omega
  | @staffEnroll key ref wanted found fresh =>
    have hheld := r.unitsOf_hold fresh (addUnits s.units wanted.units)
    rw [Registry.unitsAt_eq found] at hheld
    refine ⟨wanted.units.toNat, 0, Nat.zero_le _, by omega, ?_, .inl rfl⟩
    exact toNat_addUnits s.units wanted.units
  | @staffDrop course group ref held holds found =>
    have hleft := r.unitsOf_letGo holds held.units
    rw [Registry.unitsAt_eq found] at hleft
    refine ⟨0, held.units.toNat, by omega, by omega, ?_, .inr (by omega)⟩
    show (subUnits s.units held.units).toNat = _
    rw [toNat_subUnits]
    omega

namespace Registry

/-- Of the student with the number, `P` holds of the total and of the sum of the units of everything
that the student holds. -/
def TotalAt (P : Nat → Nat → Prop) (r : Registry) (id : StudentId) : Prop :=
  ∀ student, r.students.get? id = some student → P student.units.toNat (r.unitsOf student)

/-- The total never exceeds the sum. -/
abbrev Covered : Registry → StudentId → Prop :=
  TotalAt fun total sum => total ≤ sum

/-- A word can count the sum. -/
abbrev CountableAt : Registry → StudentId → Prop :=
  TotalAt fun _ sum => sum ≤ 65535

/-- The total is the sum, or the largest word if that is less. -/
abbrev Capped : Registry → StudentId → Prop :=
  TotalAt fun total sum => total = min 65535 sum

variable {r r' : Registry} {now : Instant} {request : Request} {records : List Record}
  {id : StudentId} {P Q : Nat → Nat → Prop}

/-- `Q` holds after every step that starts with `P`. -/
def Balances (P Q : Nat → Nat → Prop) : Prop :=
  ∀ total sum gained lost, total ≤ 65535 → lost ≤ sum → (lost = 0 ∨ total + gained ≤ 65535) →
    P total sum → Q (min 65535 (total + gained) - lost) (sum + gained - lost)

lemma covered_balances : Balances (· ≤ ·) (· ≤ ·) := by
  intro total sum gained lost _ hlost _ hle
  omega

/-- Where the sum fits a word, the total comes to be capped at worst. -/
lemma capped_balances :
    Balances (fun total sum => total = min 65535 sum ∧ sum ≤ 65535)
      fun total sum => total = min 65535 sum := by
  rintro total sum gained lost - hlost hfits ⟨htotal, hsum⟩
  omega

lemma Balances.refl_of (h : Balances P Q) {total sum : Nat} (ht : total ≤ 65535)
    (hP : P total sum) : Q total sum := by
  have hstep := h total sum 0 0 ht (Nat.zero_le _) (.inl rfl) hP
  rwa [Nat.add_zero, Nat.min_eq_right ht, Nat.sub_zero, Nat.add_zero, Nat.sub_zero] at hstep

/-- Where neither the students nor the units of sections change, no total does. -/
lemma TotalAt.congr (hP : r.TotalAt P id) (hbalances : Balances P Q)
    (hstudents : r'.students = r.students) (hunits : r'.unitsAt = r.unitsAt) :
    r'.TotalAt Q id := by
  intro student known
  rw [hstudents] at known
  rw [unitsOf_congr hunits]
  exact hbalances.refl_of (Nat.le_of_lt_succ student.units.toNat_lt) (hP student known)

lemma TotalAt.effect (hP : r.TotalAt P id) (hbalances : Balances P Q)
    (h : r.Effect now request records r') (hr : r.Consistent) : r'.TotalAt Q id := by
  intro student' known'
  obtain ⟨student, known, step⟩ := h.student_step hr.sound known'
  obtain ⟨gained, lost, hlost, hsum, htotal, hfits⟩ := step.balance
  rw [unitsOf_congr (h.unitsAt_eq hr), htotal, Nat.eq_sub_of_add_eq hsum]
  exact hbalances _ _ gained lost (Nat.le_of_lt_succ student.units.toNat_lt) hlost hfits
    (hP student known)

/-- In a built registry every total is capped. -/
lemma capped_of_build {snapshot : Snapshot} (built : snapshot.build = .ok r) : r.Capped id := by
  obtain ⟨hs, rfl⟩ := Snapshot.build_eq_ok_iff.1 built
  exact fun student known => toNat_units_of_wellFormed hs known

lemma Capped.covered (h : r.Capped id) : r.Covered id :=
  fun student known => (h student known).trans_le (Nat.min_le_right _ _)

end Registry

@[simp] lemma Student.units_hold (s : Student) (key : SectionKey) (units : UInt16) :
    (s.hold key units).units = units :=
  rfl

/-! ## A student with many units -/

namespace Snapshot

/-- The key of the courses of which student 1 holds many. -/
def heavyKey (i : Nat) : SectionKey :=
  ⟨⟨Int32.ofNat i⟩, ⟨1⟩⟩

/-- A section of 255 units whose only seat student 1 has. -/
def heavy (i : Nat) : StoredSection :=
  ⟨heavyKey i, ⟨7⟩, "staff", 255, 1, 0, none, none, .unlocked, [⟨1⟩]⟩

/-- A section with one seat that nobody has. -/
def light (key : SectionKey) (units : UInt8) : StoredSection :=
  ⟨key, ⟨7⟩, "staff", units, 1, 0, none, none, .unlocked, []⟩

/-- Student 1 holds `n` courses of 255 units each and may hold as many units as a word can count.
One more course has a section of 1 unit, and another group of the first course has 5. -/
def laden (n : Nat) : Snapshot where
  departments := [⟨⟨7⟩, "Mathematics"⟩]
  sections := light ⟨⟨-1⟩, ⟨1⟩⟩ 1 :: light ⟨⟨0⟩, ⟨2⟩⟩ 5 :: (List.range n).map heavy
  students := [⟨⟨1⟩, -1, 65535, 2, .female, (List.range n).map heavyKey⟩]

/-- Student 1 of `laden n`. -/
def ladenStudent (n : Nat) : Student :=
  StoredStudent.built ⟨⟨1⟩, -1, 65535, 2, .female, (List.range n).map heavyKey⟩ (laden n).sectionMap

lemma units_heavy (i : Nat) : (heavy i).built.units = 255 :=
  rfl

lemma units_light (key : SectionKey) (units : UInt8) : (light key units).built.units = units :=
  rfl

variable {n i : Nat} {t : StoredSection}

lemma mem_sections_laden : t ∈ (laden n).sections ↔
    t = light ⟨⟨-1⟩, ⟨1⟩⟩ 1 ∨ t = light ⟨⟨0⟩, ⟨2⟩⟩ 5 ∨ ∃ i < n, heavy i = t := by
  simp [laden]

lemma toInt_heavyKey (hi : i < 1000) : (heavyKey i).course.number.toInt = i :=
  Int32.toInt_ofNat_of_lt (by omega)

lemma course_heavyKey_ne (hi : i < 1000) : (heavyKey i).course ≠ ⟨-1⟩ := by
  intro heq
  have hint := toInt_heavyKey hi
  rw [heq] at hint
  change (-1 : Int32).toInt = _ at hint
  rw [show (-1 : Int32).toInt = -1 by decide] at hint
  omega

lemma nodup_heavyKeys (hn : n ≤ 1000) :
    ((List.range n).map fun i => (heavyKey i).course).Nodup := by
  refine List.Nodup.map_on (fun i hi j hj heq => ?_) List.nodup_range
  have hint := congrArg (fun c : CourseId => c.number.toInt) heq
  rw [List.mem_range] at hi hj
  simp only [toInt_heavyKey (show i < 1000 by omega), toInt_heavyKey (show j < 1000 by omega)]
    at hint
  exact Int.ofNat_inj.1 hint

lemma wellFormed_laden (hn : n ≤ 1000) : (laden n).WellFormed := by
  have hcourses := nodup_heavyKeys hn
  have hkeys : ((List.range n).map heavyKey).Nodup := by
    refine List.Nodup.of_map SectionKey.course ?_
    rwa [List.map_map]
  have hspare : ∀ i ∈ List.range n, heavyKey i ≠ ⟨⟨-1⟩, ⟨1⟩⟩ := by
    intro i hi heq
    rw [List.mem_range] at hi
    exact course_heavyKey_ne (show i < 1000 by omega) (congrArg SectionKey.course heq)
  have hother : ∀ i ∈ List.range n, heavyKey i ≠ ⟨⟨0⟩, ⟨2⟩⟩ := by
    intro i _ heq
    exact absurd (congrArg (fun key => key.group.number) heq) (show (1 : UInt8) ≠ 2 by decide)
  constructor
  · exact List.nodup_singleton _
  · show (_ :: _ :: ((List.range n).map heavy).map _).Nodup
    rw [List.map_map]
    refine List.nodup_cons.2 ⟨?_, List.nodup_cons.2 ⟨?_, hkeys⟩⟩
    · rw [List.mem_cons, not_or]
      refine ⟨by decide, fun hmem => ?_⟩
      obtain ⟨i, hi, heq⟩ := List.mem_map.1 hmem
      exact hspare i hi heq
    · intro hmem
      obtain ⟨i, hi, heq⟩ := List.mem_map.1 hmem
      exact hother i hi heq
  · intro t ht
    refine ⟨_, List.mem_singleton_self _, ?_⟩
    rcases mem_sections_laden.1 ht with rfl | rfl | ⟨i, -, rfl⟩ <;> rfl
  · intro t ht
    rcases mem_sections_laden.1 ht with rfl | rfl | ⟨i, -, rfl⟩
    · exact ⟨⟨_, rfl⟩, List.nodup_nil, Nat.zero_le _⟩
    · exact ⟨⟨_, rfl⟩, List.nodup_nil, Nat.zero_le _⟩
    · exact ⟨⟨_, rfl⟩, List.nodup_singleton _, Nat.le_refl 1⟩
  · exact List.nodup_singleton _
  · intro x hx
    rw [List.mem_singleton.1 hx, List.map_map]
    exact hcourses
  · intro x hx key hkey
    rw [List.mem_singleton.1 hx] at hkey ⊢
    obtain ⟨i, hi, rfl⟩ := List.mem_map.1 hkey
    exact ⟨heavy i, mem_sections_laden.2 (.inr (.inr ⟨i, List.mem_range.1 hi, rfl⟩)), rfl,
      List.mem_singleton_self _⟩
  · intro t ht id hid
    rcases mem_sections_laden.1 ht with rfl | rfl | ⟨i, hi, rfl⟩
    · cases hid
    · cases hid
    · exact ⟨_, List.mem_singleton_self _, (List.mem_singleton.1 hid).symm,
        List.mem_map.2 ⟨i, List.mem_range.2 hi, rfl⟩⟩

lemma build_laden (hn : n ≤ 1000) : (laden n).build = .ok (laden n).registry :=
  build_eq_ok_iff.2 ⟨wellFormed_laden hn, rfl⟩

lemma lookup_laden (hn : n ≤ 1000) (ht : t ∈ (laden n).sections) :
    ∃ ref, (laden n).registry.catalog.lookup t.key = some (ref, t.built) := by
  have hget : (laden n).sectionMap.get? t.key = some t.built :=
    OrderedMap.get?_foldl_insert_of_mem (wellFormed_laden hn).sections_nodup ht
  rw [← (wellFormed_laden hn).lookup_registry] at hget
  obtain ⟨⟨ref, s⟩, found, rfl⟩ := Option.map_eq_some_iff.1 hget
  exact ⟨ref, found⟩

/-- The course that student 1 does not hold. -/
lemma lookup_spare (hn : n ≤ 1000) : ∃ ref, (laden n).registry.catalog.lookup ⟨⟨-1⟩, ⟨1⟩⟩ =
    some (ref, (light ⟨⟨-1⟩, ⟨1⟩⟩ 1).built) :=
  lookup_laden hn (mem_sections_laden.2 (.inl rfl))

/-- The other group of the first course. -/
lemma lookup_other (hn : n ≤ 1000) : ∃ ref, (laden n).registry.catalog.lookup ⟨⟨0⟩, ⟨2⟩⟩ =
    some (ref, (light ⟨⟨0⟩, ⟨2⟩⟩ 5).built) :=
  lookup_laden hn (mem_sections_laden.2 (.inr (.inl rfl)))

lemma lookup_heavy (hn : n ≤ 1000) (hi : i < n) :
    ∃ ref, (laden n).registry.catalog.lookup (heavyKey i) = some (ref, (heavy i).built) :=
  lookup_laden hn (mem_sections_laden.2 (.inr (.inr ⟨i, hi, rfl⟩)))

lemma known_ladenStudent (n : Nat) :
    (laden n).registry.students.get? ⟨1⟩ = some (ladenStudent n) :=
  rfl

lemma windowOpen_ladenStudent (n : Nat) : (ladenStudent n).windowOpen .epoch = true := by
  show windowOpen (-1) .epoch = true
  decide

lemma held_ladenStudent_perm (hn : n ≤ 1000) :
    (ladenStudent n).held.Perm ((List.range n).map heavyKey) := by
  refine StoredStudent.held_built_perm ?_ _
  rw [List.map_map]
  exact nodup_heavyKeys hn

lemma mem_held_ladenStudent (hn : n ≤ 1000) {key : SectionKey} :
    key ∈ (ladenStudent n).held ↔ ∃ i < n, heavyKey i = key := by
  rw [(held_ladenStudent_perm hn).mem_iff, List.mem_map]
  simp

lemma holds_ladenStudent (hn : n ≤ 1000) (hi : i < n) :
    (ladenStudent n).courses.get? (heavyKey i).course = some ⟨1⟩ :=
  Registry.mem_held.1 ((mem_held_ladenStudent hn).2 ⟨i, hi, rfl⟩)

lemma fresh_ladenStudent (hn : n ≤ 1000) : (ladenStudent n).courses.get? ⟨-1⟩ = none := by
  rw [Option.eq_none_iff_forall_ne_some]
  intro group holds
  have hheld : (⟨⟨-1⟩, group⟩ : SectionKey) ∈ (ladenStudent n).held := Registry.mem_held.2 holds
  obtain ⟨i, hi, heq⟩ := (mem_held_ladenStudent hn).1 hheld
  exact course_heavyKey_ne (by omega) (congrArg SectionKey.course heq)

lemma unitsOf_ladenStudent (hn : n ≤ 1000) :
    (laden n).registry.unitsOf (ladenStudent n) = 255 * n := by
  have hunits : ∀ i ∈ List.range n, (laden n).registry.unitsAt (heavyKey i) = 255 := by
    intro i hi
    obtain ⟨ref, found⟩ := lookup_heavy hn (List.mem_range.1 hi)
    exact Registry.unitsAt_eq found
  rw [Registry.unitsOf, ((held_ladenStudent_perm hn).map _).sum_nat, List.map_map]
  refine (congrArg List.sum (List.map_congr_left hunits)).trans ?_
  simp [Nat.mul_comm]

lemma toNat_units_ladenStudent (hn : n ≤ 1000) :
    (ladenStudent n).units.toNat = min 65535 (255 * n) := by
  rw [← unitsOf_ladenStudent hn]
  exact Registry.toNat_units_of_wellFormed (wellFormed_laden hn) (known_ladenStudent n)

end Snapshot

/-! ## Runs -/

namespace Office

open Registry

variable {o : Office} {id : StudentId} {P Q : Nat → Nat → Prop}

/-- Every turn is a step for the totals. -/
lemma turn_totalAt (hr : o.registry.Consistent) (hP : o.registry.TotalAt P id)
    (hbalances : Balances P Q) (t : Turn) : (o.turn t).2.registry.TotalAt Q id := by
  rcases o.turn_cases t with heq | ⟨ref, time, -, heq⟩ | ⟨cancelled, request, -, -, heq⟩
  · rw [heq]
    exact hP.congr hbalances rfl rfl
  · rw [heq]
    exact hP.congr hbalances (students_setExamTime _ ref time)
      (unitsAt_setExamTime hr.sound ref time)
  · rw [heq]
    exact hP.effect hbalances (o.handle_effect cancelled request) hr

lemma turn_consistent (hr : o.registry.Consistent) (t : Turn) :
    (o.turn t).2.registry.Consistent :=
  hr.run [t]

lemma run_covered (hr : o.registry.Consistent) (start : o.registry.Covered id)
    (turns : List Turn) : (o.run turns).2.registry.Covered id := by
  induction turns generalizing o with
  | nil => exact start
  | cons t rest ih => exact ih (turn_consistent hr t) (turn_totalAt hr start covered_balances t)

/-- While the sum has fitted a word before every turn, the total is capped. -/
lemma run_capped (hr : o.registry.Consistent) (start : o.registry.Capped id) (turns : List Turn)
    (countable : ∀ earlier, earlier <+: turns → earlier ≠ turns →
      (o.run earlier).2.registry.CountableAt id) :
    (o.run turns).2.registry.Capped id := by
  induction turns generalizing o with
  | nil => exact start
  | cons t rest ih =>
    have hfirst : o.registry.CountableAt id :=
      countable [] List.nil_prefix (List.cons_ne_nil t rest).symm
    have hexact : o.registry.TotalAt (fun total sum => total = min 65535 sum ∧ sum ≤ 65535) id :=
      fun student known => ⟨start student known, hfirst student known⟩
    refine ih (turn_consistent hr t) (turn_totalAt hr hexact capped_balances t) ?_
    intro earlier hearlier hne
    exact countable (t :: earlier) ((List.prefix_cons_inj t).2 hearlier)
      fun h => hne (List.cons.inj h).2

/-! ## Calls that are served -/

section

variable {student : Student} {key : SectionKey} {ref : Catalog.Ref} {wanted : Section}

lemma run_request (o : Office) (cancelled : Bool) (request : Request) :
    (o.run [.call (.request cancelled request)]).2 = (o.handle cancelled request).2 :=
  rfl

/-- If the journal takes the record, staff enroll a student in a section with a free seat. -/
lemma handle_staffEnroll (known : o.registry.students.get? id = some student)
    (found : o.registry.catalog.lookup key = some (ref, wanted))
    (fresh : student.courses.get? key.course = none) (room : wanted.seats.isFull = false)
    (cancelled : Bool) (accepts : ∀ record, (o.outbox.offer cancelled record).1 = .taken) :
    (o.handle cancelled (.staffEnroll id key)).2.registry =
      (o.registry.putSection ref (wanted.withSeats (wanted.seats.give id .registered))).putStudent
        (student.hold key (Student.addUnits student.units wanted.units)) := by
  have hfresh : (!student.holdsCourse key.course) = true := not_holdsCourse_iff.2 fresh
  have hgrant : wanted.grantByForce id = .ok ⟨[wanted.enterByForce id], ()⟩ := by
    simp [Section.grantByForce, room]
  have hdecide : o.decide (.staffEnroll id key) = .ok ⟨[⟨
      wanted.record (.enroll id wanted.key false),
      (o.registry.putSection ref (wanted.withSeats (wanted.seats.give id .registered))).putStudent
        (student.hold key (Student.addUnits student.units wanted.units)),
      .forced id wanted.key⟩], .done⟩ := by
    simp only [Office.decide, Registry.staffEnroll, student_eq_ok.2 known, offered_eq_ok.2 found,
      hfresh, hgrant, Check.require_true, ok_bind]
    rfl
  exact (handle_of_accepted cancelled accepts hdecide).2

end

/-- **No total ever exceeds the exact sum** of the units of everything that the student holds, and
as long as no earlier sum was too large for a word, the total is the sum, or the largest word in the
one state in which the sum has just become larger. -/
theorem run_units_ledger {snapshot : Snapshot} {r : Registry} (built : snapshot.build = .ok r)
    (clock : Instant) (outbox : Outbox) (turns : List Turn) (id : StudentId) (student : Student) :
    let reached := fun earlier => (run ⟨r, clock, outbox⟩ earlier).2.registry
    (reached turns).students.get? id = some student →
      student.units.toNat ≤ (reached turns).unitsOf student ∧
      ((∀ earlier, earlier <+: turns → earlier ≠ turns → ∀ student',
          (reached earlier).students.get? id = some student' →
          (reached earlier).unitsOf student' ≤ 65535) →
        student.units.toNat = min 65535 ((reached turns).unitsOf student)) := by
  intro reached known
  have hr : r.Consistent := Snapshot.build_consistent built
  have hstart : r.Capped id := capped_of_build built
  refine ⟨run_covered (o := ⟨r, clock, outbox⟩) hr hstart.covered turns student known, ?_⟩
  intro countable
  exact run_capped (o := ⟨r, clock, outbox⟩) hr hstart turns countable student known

/-- Staff enroll student 3, and student 2 changes to the other group. -/
theorem run_units_ledger_small :
    let turns : List Turn := [
      .call (.request false (.staffEnroll ⟨3⟩ ⟨⟨100⟩, ⟨1⟩⟩)),
      .call (.request false (.switchGroup ⟨2⟩ ⟨⟨100⟩, ⟨2⟩⟩))]
    let reached := fun earlier => (run ⟨.small, .epoch, .script .accepting⟩ earlier).2.registry
    ∃ student, (reached turns).students.get? ⟨3⟩ = some student ∧
      (∀ earlier, earlier <+: turns → earlier ≠ turns → (reached earlier).CountableAt ⟨3⟩) ∧
      (reached turns).unitsOf student = 3 ∧
      student.units.toNat = min 65535 ((reached turns).unitsOf student) := by
  intro turns reached
  have hcountable : ∀ earlier ∈ turns.inits, (reached earlier).Countable := by decide +kernel
  have hearlier : ∀ earlier, earlier <+: turns → earlier ≠ turns →
      (reached earlier).CountableAt ⟨3⟩ := fun earlier hprefix _ =>
    hcountable earlier ((List.mem_inits _ _).2 hprefix) ⟨3⟩
  obtain ⟨student, known, hsum⟩ : ∃ student, (reached turns).students.get? ⟨3⟩ = some student ∧
      (reached turns).unitsOf student = 3 := ⟨_, rfl, by decide +kernel⟩
  have hledger := run_units_ledger Snapshot.small_build .epoch (.script .accepting) turns ⟨3⟩
    student known
  exact ⟨student, known, hearlier, hsum, hledger.2 hearlier⟩

/-- A total that can grow no further is not the sum any more. -/
theorem total_stops_at_largest_word :
    let turns : List Turn := [.call (.request false (.staffEnroll ⟨1⟩ ⟨⟨-1⟩, ⟨1⟩⟩))]
    let reached := fun earlier =>
      (run ⟨(Snapshot.laden 257).registry, .epoch, .script .accepting⟩ earlier).2.registry
    (Snapshot.laden 257).build = .ok (Snapshot.laden 257).registry ∧
    (∀ earlier, earlier <+: turns → earlier ≠ turns → ∀ student,
      (reached earlier).students.get? ⟨1⟩ = some student →
      (reached earlier).unitsOf student ≤ 65535) ∧
    ∃ student, (reached turns).students.get? ⟨1⟩ = some student ∧
      student.units.toNat = 65535 ∧ (reached turns).unitsOf student = 65536 := by
  intro turns reached
  let o : Office := ⟨(Snapshot.laden 257).registry, .epoch, .script .accepting⟩
  let s := Snapshot.ladenStudent 257
  let key : SectionKey := ⟨⟨-1⟩, ⟨1⟩⟩
  have built := Snapshot.build_laden (n := 257) (by decide)
  have hr : o.registry.Consistent := Snapshot.build_consistent built
  have known : o.registry.students.get? ⟨1⟩ = some s := Snapshot.known_ladenStudent 257
  have hsum : o.registry.unitsOf s = 65535 := Snapshot.unitsOf_ladenStudent (by decide)
  have htotal : s.units.toNat = 65535 := Snapshot.toNat_units_ladenStudent (by decide)
  obtain ⟨ref, found⟩ := Snapshot.lookup_spare (n := 257) (by decide)
  have fresh : s.courses.get? key.course = none := Snapshot.fresh_ladenStudent (by decide)
  have hone : (1 : UInt8).toNat = 1 := rfl
  refine ⟨built, ?_, ?_⟩
  · intro earlier hearlier hne student hstudent
    obtain rfl : earlier = [] := by
      rcases List.prefix_cons_iff.1 hearlier with h | ⟨rest, rfl, hrest⟩
      · exact h
      · rw [List.prefix_nil.1 hrest] at hne
        exact absurd rfl hne
    have hreached : reached [] = o.registry := rfl
    rw [hreached, known, Option.some.injEq] at hstudent
    rw [hreached, ← hstudent, hsum]
  · have hreached : reached turns = (o.handle false (.staffEnroll ⟨1⟩ key)).2.registry :=
      congrArg Office.registry (run_request o false _)
    have heffect := o.handle_effect false (.staffEnroll ⟨1⟩ key)
    have hregistry := handle_staffEnroll known found fresh rfl false fun _ => rfl
    have hspare : o.registry.unitsAt key = 1 := unitsAt_eq found
    have hadded := Student.toNat_addUnits s.units 1
    refine ⟨s.hold key (Student.addUnits s.units 1), ?_, ?_, ?_⟩
    · rw [hreached, hregistry]
      exact OrderedMap.get?_insert_self ..
    · rw [Student.units_hold]
      omega
    · rw [hreached, unitsOf_congr (heffect.unitsAt_eq hr), unitsOf_hold fresh]
      omega

end Office

end CourseRegistration
