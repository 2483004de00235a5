import CourseRegistration.Timetable.WeeklyHours
import Mathlib.Data.Nat.Bitwise
import Mathlib.Tactic.Lemma

/-!
# Packed hours

A word of packed hours is looked at bit by bit.  The low 22 bits are those of the minutes, which lie
below `1440 * 1440`; each higher bit stands for a weekday (`testBit_ofHours`).  So what is packed
can be read again (`start_ofHours`, `finish_ofHours`, `mem_days_ofHours`), and packing what was read
makes the same word: hours that are read from a word and packed with checks make that word again
(`toWeekly_toHours`).
-/

namespace CourseRegistration

/-! ## Days -/

lemma Weekday.index_lt (d : Weekday) : d.index < 7 := by
  cases d <;> decide

lemma Weekday.index_inj {d e : Weekday} : d.index = e.index ↔ d = e := by
  constructor
  · cases d <;> cases e <;> simp [Weekday.index]
  · intro h
    rw [h]

lemma Hours.withinDay_iff {h : Hours} :
    h.withinDay = true ↔ h.start.toNat < 1440 ∧ h.finish.toNat < 1440 := by
  rw [Hours.withinDay, Bool.and_eq_true, decide_eq_true_iff, decide_eq_true_iff]
  rfl

/-- Hours are packed if they lie within the day and do not run backwards. -/
lemma Hours.toWeekly_eq_ok_iff {h : Hours} {w : WeeklyHours} :
    h.toWeekly = .ok w ↔
      (h.start.toNat < 1440 ∧ h.finish.toNat < 1440 ∧ h.start.toNat ≤ h.finish.toNat) ∧
        w = .ofHours h := by
  rw [← and_assoc, ← withinDay_iff]
  simp only [toWeekly, UInt16.lt_iff_toNat_lt]
  by_cases hday : h.withinDay = true
  · by_cases hback : h.finish.toNat < h.start.toNat
    · simp [hday, hback]
    · simp [hday, hback, Nat.not_lt.1 hback, eq_comm]
  · simp [hday]

namespace WeeklyHours

lemma toNat_dayBit (d : Weekday) : (dayBit d).toNat = 2 ^ d.index := by
  cases d <;> rfl

lemma toNat_dayBit_shifted (d : Weekday) :
    (dayBit d <<< minuteBits).toNat = 2 ^ (22 + d.index) := by
  cases d <;> rfl

/-- Adding days to a word sets their bits and no others. -/
lemma testBit_foldl_days (days : List Weekday) (w : UInt32) (i : Nat) :
    (days.foldl (fun w d => w ||| (dayBit d <<< minuteBits)) w).toNat.testBit i =
      (w.toNat.testBit i || days.any fun d => decide (22 + d.index = i)) := by
  induction days generalizing w with
  | nil => simp
  | cons d rest ih =>
    rw [List.foldl_cons, ih, UInt32.toNat_or, Nat.testBit_or, toNat_dayBit_shifted,
      Nat.testBit_two_pow, List.any_cons, Bool.or_assoc]

/-! ## Reading a word -/

/-- The minutes of a word are its lowest 22 bits. -/
lemma toNat_minutes (w : WeeklyHours) : (w.word &&& minuteMask).toNat = w.word.toNat % 2 ^ 22 := by
  rw [UInt32.toNat_and]
  exact Nat.and_two_pow_sub_one_eq_mod _ 22

lemma toNat_start (w : WeeklyHours) : w.start.toNat = w.word.toNat % 2 ^ 22 % 1440 := by
  have hmod : (1440 : UInt32).toNat = 1440 := rfl
  rw [start, UInt32.toNat_toUInt16, UInt32.toNat_mod, toNat_minutes, hmod]
  omega

lemma toNat_finish (w : WeeklyHours) : w.finish.toNat = w.word.toNat % 2 ^ 22 / 1440 % 1440 := by
  have hmod : (1440 : UInt32).toNat = 1440 := rfl
  rw [finish, UInt32.toNat_toUInt16, UInt32.toNat_mod, UInt32.toNat_div, toNat_minutes, hmod]
  omega

/-- The bits of the days, counted from Sunday. -/
lemma testBit_dayBits (w : WeeklyHours) (i : Nat) :
    w.dayBits.toNat.testBit i = (w.word.toNat.testBit (22 + i) && decide (i < 7)) := by
  have hshift : (w.word >>> minuteBits).toNat = w.word.toNat >>> 22 := by
    rw [UInt32.toNat_shiftRight]
    rfl
  have hmask : (0x7f : UInt32).toNat = 2 ^ 7 - 1 := rfl
  rw [dayBits, UInt32.toNat_and, hshift, hmask, Nat.testBit_and, Nat.testBit_shiftRight,
    Nat.testBit_two_pow_sub_one]

/-- A word has a day exactly if the bit of the day is set. -/
lemma mem_days {w : WeeklyHours} {d : Weekday} :
    d ∈ w.days ↔ w.word.toNat.testBit (22 + d.index) = true := by
  have hbits : (w.dayBits &&& dayBit d).toNat =
      (w.word.toNat.testBit (22 + d.index)).toNat * 2 ^ d.index := by
    rw [UInt32.toNat_and, toNat_dayBit, Nat.and_two_pow, testBit_dayBits,
      decide_eq_true d.index_lt, Bool.and_true]
  have hset : (w.dayBits &&& dayBit d != 0) = true ↔
      w.word.toNat.testBit (22 + d.index) = true := by
    rw [bne_iff_ne, ne_eq, ← UInt32.toNat_inj, hbits]
    cases w.word.toNat.testBit (22 + d.index) <;> simp
  rw [days, List.mem_filter, hset]
  exact and_iff_right d.mem_all

/-! ## Packing -/

variable {h : Hours}

/-- Two minutes of a day fit below the bits of the days. -/
lemma minutes_lt (hday : h.withinDay = true) :
    h.start.toNat + 1440 * h.finish.toNat < 2 ^ 22 := by
  obtain ⟨hstart, hfinish⟩ := Hours.withinDay_iff.1 hday
  omega

lemma toNat_product (hday : h.withinDay = true) :
    ((1440 : UInt32) * h.finish.toUInt32).toNat = 1440 * h.finish.toNat := by
  have hlt := minutes_lt hday
  have hfactor : (1440 : UInt32).toNat = 1440 := rfl
  rw [UInt32.toNat_mul, hfactor, UInt16.toNat_toUInt32]
  omega

/-- The minutes are packed by exact arithmetic. -/
lemma toNat_packed (hday : h.withinDay = true) :
    (h.start.toUInt32 + 1440 * h.finish.toUInt32).toNat =
      h.start.toNat + 1440 * h.finish.toNat := by
  have hlt := minutes_lt hday
  rw [UInt32.toNat_add, toNat_product hday, UInt16.toNat_toUInt32]
  omega

/-- The bits of packed hours: those of the minutes, and one for each day. -/
lemma testBit_ofHours (hday : h.withinDay = true) (i : Nat) :
    (ofHours h).word.toNat.testBit i =
      ((h.start.toNat + 1440 * h.finish.toNat).testBit i ||
        h.days.any fun d => decide (22 + d.index = i)) := by
  rw [← toNat_packed hday]
  exact testBit_foldl_days h.days _ i

/-- The minutes do not reach the bits of the days. -/
lemma testBit_minutes (hday : h.withinDay = true) {i : Nat} (hi : 22 ≤ i) :
    (h.start.toNat + 1440 * h.finish.toNat).testBit i = false :=
  Nat.testBit_lt_two_pow
    (Nat.lt_of_lt_of_le (minutes_lt hday) (Nat.pow_le_pow_right Nat.two_pos hi))

/-- The minutes of packed hours. -/
lemma minutes_ofHours (hday : h.withinDay = true) :
    (ofHours h).word.toNat % 2 ^ 22 = h.start.toNat + 1440 * h.finish.toNat := by
  refine Nat.eq_of_testBit_eq fun i => ?_
  rw [Nat.testBit_mod_two_pow, testBit_ofHours hday]
  by_cases hi : i < 22
  · have hnone : (h.days.any fun d => decide (22 + d.index = i)) = false := by
      rw [List.any_eq_false]
      intro d _
      rw [decide_eq_true_eq]
      omega
    rw [hnone, Bool.or_false, decide_eq_true hi, Bool.true_and]
  · rw [testBit_minutes hday (Nat.not_lt.1 hi), decide_eq_false hi, Bool.false_and]

lemma start_ofHours (hday : h.withinDay = true) : (ofHours h).start = h.start := by
  obtain ⟨hstart, hfinish⟩ := Hours.withinDay_iff.1 hday
  rw [← UInt16.toNat_inj, toNat_start, minutes_ofHours hday]
  omega

lemma finish_ofHours (hday : h.withinDay = true) : (ofHours h).finish = h.finish := by
  obtain ⟨hstart, hfinish⟩ := Hours.withinDay_iff.1 hday
  rw [← UInt16.toNat_inj, toNat_finish, minutes_ofHours hday]
  omega

lemma mem_days_ofHours (hday : h.withinDay = true) {d : Weekday} :
    d ∈ (ofHours h).days ↔ d ∈ h.days := by
  rw [mem_days, testBit_ofHours hday, testBit_minutes hday (Nat.le_add_right ..), Bool.false_or,
    List.any_eq_true]
  simp only [decide_eq_true_eq, Nat.add_left_cancel_iff, Weekday.index_inj]
  constructor
  · rintro ⟨e, he, rfl⟩
    exact he
  · intro hd
    exact ⟨d, hd, rfl⟩

/-- Hours with the same minutes and the same days are packed alike. -/
lemma ofHours_congr {h' : Hours} (hday : h.withinDay = true) (hstart : h'.start = h.start)
    (hfinish : h'.finish = h.finish) (hdays : ∀ d, d ∈ h'.days ↔ d ∈ h.days) :
    ofHours h' = ofHours h := by
  have hday' : h'.withinDay = true := by
    rw [Hours.withinDay_iff, hstart, hfinish]
    exact Hours.withinDay_iff.1 hday
  have hword : (ofHours h').word = (ofHours h).word := by
    rw [← UInt32.toNat_inj]
    refine Nat.eq_of_testBit_eq fun i => ?_
    rw [testBit_ofHours hday, testBit_ofHours hday', hstart, hfinish]
    congr 1
    rw [Bool.eq_iff_iff, List.any_eq_true, List.any_eq_true]
    exact exists_congr fun d => and_congr_left' (hdays d)
  rw [← WeeklyHours.mk.injEq] at hword
  exact hword

/-- **Hours that are read from a packed word make the word again.** -/
theorem toWeekly_toHours {w : WeeklyHours} (packed : h.toWeekly = .ok w) :
    w.toHours.toWeekly = .ok w := by
  obtain ⟨⟨hstart, hfinish, horder⟩, rfl⟩ := Hours.toWeekly_eq_ok_iff.1 packed
  have hday := Hours.withinDay_iff.2 ⟨hstart, hfinish⟩
  have hsame : ofHours (ofHours h).toHours = ofHours h :=
    ofHours_congr hday (start_ofHours hday) (finish_ofHours hday) fun d => mem_days_ofHours hday
  refine Hours.toWeekly_eq_ok_iff.2 ⟨?_, hsame.symm⟩
  show (ofHours h).start.toNat < 1440 ∧ (ofHours h).finish.toNat < 1440 ∧
    (ofHours h).start.toNat ≤ (ofHours h).finish.toNat
  rw [start_ofHours hday, finish_ofHours hday]
  exact ⟨hstart, hfinish, horder⟩

end WeeklyHours

end CourseRegistration
