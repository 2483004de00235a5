import CourseRegistration.Proofs.Hours

/-!
# Words and written hours

Packing forgets the order of the days and their repeats, and nothing else.  So the hours with their
days once each, from Sunday on (`Hours.inOrder`), stand for all hours that are packed alike.  A word
is `Canonical` if packing can produce it: it has no bits beyond those of the days, and its minutes
are those of one day.  Every word can be read, and is made again from what is read exactly if it is
canonical.

Words are 32 bits wide, and so is the arithmetic of packing.  It is exact all the same, and the
minutes stay below the days (`Hours.PacksExactly`).

The headline is `packing_bijective`.
-/

namespace CourseRegistration

/-! ## Hours in order -/

/-- The days of a list once each, Sunday first. -/
def Weekday.inOrder (days : List Weekday) : List Weekday :=
  all.filter (· ∈ days)

@[simp] lemma Weekday.mem_inOrder {days : List Weekday} {d : Weekday} :
    d ∈ inOrder days ↔ d ∈ days := by
  simp [inOrder, d.mem_all]

/-- One day before another in the week. -/
def Weekday.Before (d e : Weekday) : Prop := d.index < e.index

instance (d e : Weekday) : Decidable (d.Before e) :=
  inferInstanceAs (Decidable (_ < _))

/-- Each of the first seven numbers counts the days before some day. -/
lemma Weekday.exists_index {i : Nat} (hi : i < 7) : ∃ d : Weekday, d.index = i := by
  have hall : ∀ j : Fin 7, ∃ d ∈ all, d.index = j.val := by decide
  obtain ⟨d, -, hindex⟩ := hall ⟨i, hi⟩
  exact ⟨d, hindex⟩

lemma Weekday.pairwise_all : all.Pairwise Before := by
  decide

lemma Weekday.pairwise_inOrder (days : List Weekday) : (inOrder days).Pairwise Before :=
  pairwise_all.filter _

namespace Hours

/-- The hours with their days once each, Sunday first. -/
def inOrder (h : Hours) : Hours :=
  ⟨Weekday.inOrder h.days, h.start, h.finish⟩

/-- Two hours have the same minutes and the same days, however these are listed. -/
structure Alike (h h' : Hours) : Prop where
  start : h.start = h'.start
  finish : h.finish = h'.finish
  days : ∀ d, d ∈ h.days ↔ d ∈ h'.days

/-- No sum, product or shift of packing is cut off, and the minutes leave the bits of the days
alone. -/
structure PacksExactly (h : Hours) : Prop where
  product : ((1440 : UInt32) * h.finish.toUInt32).toNat = 1440 * h.finish.toNat
  minutes : (h.start.toUInt32 + 1440 * h.finish.toUInt32).toNat =
    h.start.toNat + 1440 * h.finish.toNat
  minutes_lt : h.start.toNat + 1440 * h.finish.toNat < 2 ^ 22
  /-- The bit of a day is one of the bits 22 to 28. -/
  day : ∀ d : Weekday, d.index < 7 ∧
    (WeeklyHours.dayBit d <<< WeeklyHours.minuteBits).toNat = 2 ^ (22 + d.index)
  /-- The word is the sum of the minutes and of one power of two for each day. -/
  word : (WeeklyHours.ofHours h).word.toNat = h.start.toNat + 1440 * h.finish.toNat +
    ((Weekday.inOrder h.days).map fun d => 2 ^ (22 + d.index)).sum

end Hours

namespace WeeklyHours

variable {h h' : Hours} {w : WeeklyHours}

/-- What is read from packed hours are the hours in order. -/
lemma toHours_ofHours (hday : h.withinDay = true) : (ofHours h).toHours = h.inOrder := by
  have hdays : (ofHours h).days = Weekday.inOrder h.days := by
    refine List.filter_congr fun d _ => ?_
    have hmem := mem_days_ofHours hday (d := d)
    rw [days, List.mem_filter, and_iff_right d.mem_all] at hmem
    rw [Bool.eq_iff_iff, decide_eq_true_iff]
    exact hmem
  rw [toHours, hdays, start_ofHours hday, finish_ofHours hday]
  rfl

/-- Two hours are packed alike exactly if they are alike. -/
lemma ofHours_inj (hday : h.withinDay = true) (hday' : h'.withinDay = true) :
    ofHours h = ofHours h' ↔ h.Alike h' := by
  constructor
  · intro heq
    refine ⟨?_, ?_, fun d => ?_⟩
    · rw [← start_ofHours hday, heq, start_ofHours hday']
    · rw [← finish_ofHours hday, heq, finish_ofHours hday']
    · rw [← mem_days_ofHours hday, heq, mem_days_ofHours hday']
  · exact fun halike => ofHours_congr hday' halike.start halike.finish halike.days

/-! ## Exact arithmetic -/

/-- Setting the bits of days in their order, each above all bits set so far, adds them up. -/
lemma toNat_foldl_days {days : List Weekday} {word : UInt32} (order : days.Pairwise Weekday.Before)
    (below : ∀ d ∈ days, word.toNat < 2 ^ (22 + d.index)) :
    (days.foldl (fun w d => w ||| (dayBit d <<< minuteBits)) word).toNat =
      word.toNat + (days.map fun d => 2 ^ (22 + d.index)).sum := by
  induction days generalizing word with
  | nil => rfl
  | cons d rest ih =>
    obtain ⟨hfirst, hrest⟩ := List.pairwise_cons.1 order
    have hlt : word.toNat < 2 ^ (22 + d.index) := below d List.mem_cons_self
    have hset : (word ||| (dayBit d <<< minuteBits)).toNat = word.toNat + 2 ^ (22 + d.index) := by
      rw [UInt32.toNat_or, toNat_dayBit_shifted, Nat.or_comm, Nat.add_comm word.toNat]
      have hor := Nat.two_pow_add_eq_or_of_lt hlt 1
      rw [Nat.mul_one] at hor
      exact hor.symm
    rw [List.foldl_cons, ih hrest, hset, List.map_cons, List.sum_cons, Nat.add_assoc]
    intro e he
    rw [hset]
    -- the new bit at most doubles the bound, and the bits that follow are higher
    have hbit : 22 + d.index + 1 ≤ 22 + e.index := Nat.add_le_add_left (hfirst e he) 22
    calc word.toNat + 2 ^ (22 + d.index) < 2 ^ (22 + d.index) + 2 ^ (22 + d.index) :=
          Nat.add_lt_add_right hlt _
      _ = 2 ^ (22 + d.index + 1) := (Nat.two_pow_succ _).symm
      _ ≤ 2 ^ (22 + e.index) := Nat.pow_le_pow_right Nat.two_pos hbit

lemma packsExactly (hday : h.withinDay = true) : h.PacksExactly := by
  have hsame : ofHours h = ofHours h.inOrder :=
    ofHours_congr (h := h.inOrder) hday rfl rfl fun d => Weekday.mem_inOrder.symm
  refine ⟨toNat_product hday, toNat_packed hday, minutes_lt hday,
    fun d => ⟨d.index_lt, toNat_dayBit_shifted d⟩, ?_⟩
  rw [hsame, ← toNat_packed hday]
  refine toNat_foldl_days (Weekday.pairwise_inOrder h.days) fun d _ => ?_
  show (h.start.toUInt32 + 1440 * h.finish.toUInt32).toNat < 2 ^ (22 + d.index)
  rw [toNat_packed hday]
  exact Nat.lt_of_lt_of_le (minutes_lt hday)
    (Nat.pow_le_pow_right Nat.two_pos (Nat.le_add_right 22 d.index))

/-! ## Canonical words -/

/-- Packing can produce the word: no bit above those of the days is set, and the minutes are two
minutes of one day. -/
structure Canonical (w : WeeklyHours) : Prop where
  days_only : w.word.toNat < 2 ^ 29
  within : w.word.toNat % 2 ^ 22 < 1440 * 1440

instance (w : WeeklyHours) : Decidable w.Canonical :=
  decidable_of_iff (w.word.toNat < 2 ^ 29 ∧ w.word.toNat % 2 ^ 22 < 1440 * 1440)
    ⟨fun h => ⟨h.1, h.2⟩, fun h => ⟨h.days_only, h.within⟩⟩

lemma canonical_ofHours (hday : h.withinDay = true) : (ofHours h).Canonical := by
  obtain ⟨hstart, hfinish⟩ := Hours.withinDay_iff.1 hday
  constructor
  · refine Nat.lt_pow_two_of_testBit _ fun i hi => ?_
    rw [testBit_ofHours hday, testBit_minutes hday (by omega), Bool.false_or, List.any_eq_false]
    intro d _
    have hindex := d.index_lt
    rw [decide_eq_true_eq]
    omega
  · rw [minutes_ofHours hday]
    omega

/-- Every word is read as hours within the day. -/
lemma withinDay_toHours (w : WeeklyHours) : w.toHours.withinDay = true := by
  rw [Hours.withinDay_iff]
  show w.start.toNat < 1440 ∧ w.finish.toNat < 1440
  rw [toNat_start, toNat_finish]
  exact ⟨Nat.mod_lt _ (by decide), Nat.mod_lt _ (by decide)⟩

/-- A word without further bits is determined by its minutes and its days. -/
lemma ext_days {v : WeeklyHours} (hv : v.word.toNat < 2 ^ 29) (hw : w.word.toNat < 2 ^ 29)
    (hminutes : v.word.toNat % 2 ^ 22 = w.word.toNat % 2 ^ 22)
    (hdays : ∀ d, d ∈ v.days ↔ d ∈ w.days) : v = w := by
  have hword : v.word = w.word := by
    rw [← UInt32.toNat_inj]
    refine Nat.eq_of_testBit_eq fun i => ?_
    rcases Nat.lt_or_ge i 22 with hlow | hday
    · have hbit := congrArg (Nat.testBit · i) hminutes
      simpa only [Nat.testBit_mod_two_pow, hlow, decide_true, Bool.true_and] using hbit
    · rcases Nat.lt_or_ge i 29 with hlt | hhigh
      · obtain ⟨d, hindex⟩ := Weekday.exists_index (i := i - 22) (by omega)
        have hi : i = 22 + d.index := by omega
        rw [hi, Bool.eq_iff_iff, ← mem_days, ← mem_days, hdays]
      · have hpow : 2 ^ 29 ≤ 2 ^ i := Nat.pow_le_pow_right Nat.two_pos hhigh
        rw [Nat.testBit_lt_two_pow (Nat.lt_of_lt_of_le hv hpow),
          Nat.testBit_lt_two_pow (Nat.lt_of_lt_of_le hw hpow)]
  cases v
  cases w
  exact congrArg mk hword

/-- A word is made again from what is read from it exactly if it is canonical. -/
lemma ofHours_toHours_iff : ofHours w.toHours = w ↔ w.Canonical := by
  constructor
  · intro heq
    rw [← heq]
    exact canonical_ofHours w.withinDay_toHours
  · intro hw
    have hbound := hw.within
    refine ext_days (canonical_ofHours w.withinDay_toHours).days_only hw.days_only ?_ fun d =>
      mem_days_ofHours w.withinDay_toHours
    rw [minutes_ofHours w.withinDay_toHours]
    show w.start.toNat + 1440 * w.finish.toNat = w.word.toNat % 2 ^ 22
    rw [toNat_start, toNat_finish]
    omega

/-- Hours that are packed with checks are read in order. -/
lemma toHours_of_toWeekly (packed : h.toWeekly = .ok w) : w.toHours = h.inOrder := by
  obtain ⟨⟨hstart, hfinish, -⟩, rfl⟩ := Hours.toWeekly_eq_ok_iff.1 packed
  exact toHours_ofHours (Hours.withinDay_iff.2 ⟨hstart, hfinish⟩)

/-- **Packing is a bijection between hours in order and canonical words.**  Hours within the day are
packed by exact arithmetic into a canonical word, which is read as these hours in order; hours are
packed alike exactly if they are alike.  Every word is read as hours in order within the day, which
are packed into the word again exactly if it is canonical.  With checks, hours are packed exactly if
they lie within the day and do not run backwards. -/
theorem packing_bijective :
    (∀ h : Hours, h.withinDay = true → h.pack? = some (ofHours h) ∧
      (ofHours h).toHours = h.inOrder ∧ (ofHours h).Canonical ∧ h.PacksExactly) ∧
    (∀ h h' : Hours, h.withinDay = true → h'.withinDay = true →
      (ofHours h = ofHours h' ↔ h.Alike h')) ∧
    (∀ w : WeeklyHours, w.start.toNat < 1440 ∧ w.finish.toNat < 1440 ∧
      w.days.Pairwise Weekday.Before ∧ (w.toHours.pack? = some w ↔ w.Canonical)) ∧
    ∀ h : Hours, ((∃ w, h.toWeekly = .ok w) ↔
      h.start.toNat < 1440 ∧ h.finish.toNat < 1440 ∧ h.start.toNat ≤ h.finish.toNat) ∧
      ∀ w, h.toWeekly = .ok w → w.toHours = h.inOrder := by
  refine ⟨fun h hday => ?_, fun h h' hday hday' => ofHours_inj hday hday', fun w => ?_, fun h => ?_⟩
  · exact ⟨if_pos hday, toHours_ofHours hday, canonical_ofHours hday, packsExactly hday⟩
  · obtain ⟨hstart, hfinish⟩ := Hours.withinDay_iff.1 w.withinDay_toHours
    refine ⟨hstart, hfinish, Weekday.pairwise_all.filter _, ?_⟩
    rw [Hours.pack?, if_pos w.withinDay_toHours, Option.some.injEq, ofHours_toHours_iff]
  · refine ⟨⟨?_, ?_⟩, fun w => toHours_of_toWeekly⟩
    · rintro ⟨w, packed⟩
      exact (Hours.toWeekly_eq_ok_iff.1 packed).1
    · exact fun hbounds => ⟨_, Hours.toWeekly_eq_ok_iff.2 ⟨hbounds, rfl⟩⟩

/-- Monday, Sunday and again Monday from 600 to 720 are read as Sunday and Monday, and packed like
these.  A word with all bits set is not made again. -/
theorem packing_bijective_small :
    let h : Hours := ⟨[.monday, .sunday, .monday], 600, 720⟩
    let h' : Hours := ⟨[.sunday, .monday], 600, 720⟩
    let w : WeeklyHours := ⟨4294967295⟩
    (h.withinDay = true ∧ (ofHours h).toHours = h') ∧ ofHours h = ofHours h' ∧
      (∃ made, h.toWeekly = .ok made ∧ made.toHours = h') ∧
      w.toHours = ⟨Weekday.all, 1023, 32⟩ ∧ w.toHours.pack? ≠ some w := by
  intro h h' w
  obtain ⟨hpacked, hinj, hwords, hchecked⟩ := packing_bijective
  have horder : h.inOrder = h' := rfl
  obtain ⟨made, hmade⟩ := (hchecked h).1.2 (by decide)
  refine ⟨⟨rfl, (hpacked h rfl).2.1.trans horder⟩, (hinj h h' rfl rfl).2 ⟨rfl, rfl, ?_⟩,
    ⟨made, hmade, ((hchecked h).2 made hmade).trans horder⟩, by decide, fun hagain => ?_⟩
  · exact fun d => by cases d <;> decide
  · exact absurd ((hwords w).2.2.2.1 hagain) (by decide)

end WeeklyHours

end CourseRegistration
