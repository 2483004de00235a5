import CourseRegistration.Proofs.Acceptance
import CourseRegistration.Proofs.Packing
import CourseRegistration.Proofs.Rules

/-!
# When hours overlap

Two classes are in each other's way if there is a day and a minute at which both are in session.
Overlap compares the ends of their ranges instead.  Both mean the same for ranges that are not
empty; but a class that ends in the minute in which it begins is never in session, and still
overlaps one whose range it falls strictly inside (`empty_range_overlaps`).  Ranges that only touch
do not overlap.

A snapshot can have exactly the canonical words that do not run backwards (`schedulable_iff`), so
empty ranges are among them.  The headline is `overlaps_iff_inSession`.
-/

namespace CourseRegistration

open Snapshot

namespace WeeklyHours

variable {v w : WeeklyHours}

/-! ## Sessions -/

/-- The class meets on the day, and the minute is one of its minutes. -/
def InSession (w : WeeklyHours) (d : Weekday) (minute : Nat) : Prop :=
  d ∈ w.days ∧ w.start.toNat ≤ minute ∧ minute < w.finish.toNat

/-- Both classes meet on some day. -/
def ShareDay (v w : WeeklyHours) : Prop :=
  ∃ d, d ∈ v.days ∧ d ∈ w.days

/-- The class has no minutes, and would have them strictly inside those of the other. -/
def EmptyWithin (v w : WeeklyHours) : Prop :=
  v.start = v.finish ∧ w.start < v.start ∧ v.start < w.finish

/-- Two sets of days have a common bit exactly if they have a common day. -/
lemma dayBits_and_iff : (v.dayBits &&& w.dayBits != 0) = true ↔ v.ShareDay w := by
  rw [bne_iff_ne, ne_eq, ← UInt32.toNat_inj, UInt32.toNat_and]
  constructor
  · intro hne
    obtain ⟨i, hi⟩ := Nat.exists_testBit_of_ne_zero hne
    simp only [Nat.testBit_and, testBit_dayBits, Bool.and_eq_true, decide_eq_true_iff] at hi
    obtain ⟨⟨hv, hlt⟩, hw, -⟩ := hi
    obtain ⟨d, rfl⟩ := Weekday.exists_index hlt
    exact ⟨d, mem_days.2 hv, mem_days.2 hw⟩
  · rintro ⟨d, hv, hw⟩ hzero
    have hbit : (v.dayBits.toNat &&& w.dayBits.toNat).testBit d.index = true := by
      simp only [Nat.testBit_and, testBit_dayBits, mem_days.1 hv, mem_days.1 hw, d.index_lt,
        decide_true, Bool.and_true]
    rw [hzero, UInt32.toNat_zero, Nat.zero_testBit] at hbit
    cases hbit

lemma overlaps_iff :
    v.overlaps w = true ↔ v.start < w.finish ∧ w.start < v.finish ∧ v.ShareDay w := by
  rw [overlaps, Bool.and_eq_true, Bool.and_eq_true, dayBits_and_iff, decide_eq_true_iff,
    decide_eq_true_iff, and_assoc]

/-- Classes that are in session together overlap. -/
lemma overlaps_of_inSession {d : Weekday} {minute : Nat} (hv : v.InSession d minute)
    (hw : w.InSession d minute) : v.overlaps w = true := by
  obtain ⟨hvd, hvs, hvf⟩ := hv
  obtain ⟨hwd, hws, hwf⟩ := hw
  refine overlaps_iff.2 ⟨?_, ?_, d, hvd, hwd⟩
  · exact UInt16.lt_iff_toNat_lt.2 (Nat.lt_of_le_of_lt hvs hwf)
  · exact UInt16.lt_iff_toNat_lt.2 (Nat.lt_of_le_of_lt hws hvf)

/-- Classes that overlap and have minutes are in session together at the later of their
beginnings. -/
lemma inSession_of_overlaps (h : v.overlaps w = true) (hv : v.start < v.finish)
    (hw : w.start < w.finish) : ∃ d minute, v.InSession d minute ∧ w.InSession d minute := by
  obtain ⟨hvw, hwv, d, hvd, hwd⟩ := overlaps_iff.1 h
  rw [UInt16.lt_iff_toNat_lt] at hv hw hvw hwv
  exact ⟨d, max v.start.toNat w.start.toNat,
    ⟨hvd, Nat.le_max_left _ _, Nat.max_lt.2 ⟨hv, hwv⟩⟩,
    hwd, Nat.le_max_right _ _, Nat.max_lt.2 ⟨hvw, hw⟩⟩

/-- A class without minutes overlaps exactly those whose range it falls inside. -/
lemma overlaps_of_empty (hv : v.start = v.finish) :
    v.overlaps w = true ↔ v.ShareDay w ∧ v.EmptyWithin w := by
  rw [overlaps_iff, EmptyWithin, ← hv]
  tauto

/-! ## The hours of snapshots -/

/-- Some registry that is built from a snapshot has a section with these hours. -/
def Schedulable (w : WeeklyHours) : Prop :=
  ∃ snapshot r ref made, Snapshot.build snapshot = .ok r ∧ r.catalog.get? ref = some made ∧
    made.hours = w

/-- A snapshot of one section with the given hours. -/
def oneSection (h : Hours) : Snapshot where
  departments := [⟨⟨7⟩, "Mathematics"⟩]
  sections := [⟨⟨⟨100⟩, ⟨1⟩⟩, ⟨7⟩, "staff", 3, 1, 1, none, some h, .unlocked, []⟩]
  students := []

lemma coherent_oneSection {h : Hours} (hday : h.withinDay = true)
    (order : h.start.toNat ≤ h.finish.toNat) : (oneSection h).Coherent where
  departments_distinct := List.nodup_singleton _
  sections_distinct := List.nodup_singleton _
  department_known := by simp [oneSection]
  hours_possible := by
    rintro t ht h' hh'
    obtain rfl := List.mem_singleton.1 ht
    obtain rfl := Option.some.inj hh'
    exact ⟨(Hours.withinDay_iff.1 hday).1, (Hours.withinDay_iff.1 hday).2, order⟩
  roster_distinct := by simp [oneSection]
  roster_fits := by simp [oneSection]
  students_distinct := List.nodup_nil
  courses_distinct := nofun
  courses_known := nofun
  sides_agree := by simp [oneSection]

/-- Snapshots have exactly the canonical words that do not run backwards. -/
lemma schedulable_iff : w.Schedulable ↔ w.Canonical ∧ w.start.toNat ≤ w.finish.toNat := by
  constructor
  · rintro ⟨snapshot, r, ref, made, built, hget, rfl⟩
    have found := (build_consistent built).sound.catalog.lookup_key hget
    obtain ⟨h, packed⟩ := (Registry.storable_sections_of_build built _ _ _ found).hours
    obtain ⟨⟨hstart, hfinish, horder⟩, heq⟩ := Hours.toWeekly_eq_ok_iff.1 packed
    have hday := Hours.withinDay_iff.2 ⟨hstart, hfinish⟩
    rw [heq, start_ofHours hday, finish_ofHours hday]
    exact ⟨canonical_ofHours hday, horder⟩
  · rintro ⟨hcanonical, horder⟩
    have hs := coherent_iff_wellFormed.1 (coherent_oneSection w.withinDay_toHours horder)
    obtain ⟨ref, made, found, hmade⟩ :=
      hs.describes_registry.sections_found _ (List.mem_singleton_self _)
    exact ⟨_, _, ref, made, build_eq_ok_iff.2 ⟨hs, rfl⟩, Catalog.get?_of_lookup found,
      hmade.hours.trans (ofHours_toHours_iff.2 hcanonical)⟩

/-! ## Overlap -/

/-- **Hours that do not run backwards overlap exactly if the classes are in session together, or if
one of them has no minutes and falls strictly inside the other on a common day.**  Ranges that only
touch never overlap, and overlap has no direction.  The words that a snapshot can have are the
canonical ones that do not run backwards. -/
theorem overlaps_iff_inSession (v w : WeeklyHours) :
    (v.Schedulable ↔ v.Canonical ∧ v.start.toNat ≤ v.finish.toNat) ∧
    v.overlaps w = w.overlaps v ∧
    (v.start.toNat ≤ v.finish.toNat → w.start.toNat ≤ w.finish.toNat →
      (v.overlaps w = true ↔ (∃ d minute, v.InSession d minute ∧ w.InSession d minute) ∨
        v.ShareDay w ∧ (v.EmptyWithin w ∨ w.EmptyWithin v)) ∧
      (v.finish = w.start → v.overlaps w = false)) := by
  refine ⟨schedulable_iff, overlaps_comm v w, fun hv hw => ⟨⟨fun h => ?_, ?_⟩, fun htouch => ?_⟩⟩
  · rcases Nat.eq_or_lt_of_le hv with hvempty | hvlt
    · exact .inr (((overlaps_of_empty (UInt16.toNat_inj.1 hvempty)).1 h).imp_right .inl)
    · rcases Nat.eq_or_lt_of_le hw with hwempty | hwlt
      · rw [overlaps_comm] at h
        obtain ⟨⟨d, hwd, hvd⟩, hwithin⟩ := (overlaps_of_empty (UInt16.toNat_inj.1 hwempty)).1 h
        exact .inr ⟨⟨d, hvd, hwd⟩, .inr hwithin⟩
      · exact .inl (inSession_of_overlaps h (UInt16.lt_iff_toNat_lt.2 hvlt)
          (UInt16.lt_iff_toNat_lt.2 hwlt))
  · rintro (⟨d, minute, hvs, hws⟩ | ⟨⟨d, hvd, hwd⟩, hwithin | hwithin⟩)
    · exact overlaps_of_inSession hvs hws
    · exact (overlaps_of_empty hwithin.1).2 ⟨⟨d, hvd, hwd⟩, hwithin⟩
    · rw [overlaps_comm]
      exact (overlaps_of_empty hwithin.1).2 ⟨⟨d, hwd, hvd⟩, hwithin⟩
  · rw [Bool.eq_false_iff, ne_eq, overlaps_iff, htouch]
    exact fun h => UInt16.lt_irrefl _ h.2.1

/-- Monday from 600 to 660 and from 659 to 720 meet at 659; from 600 to 660 and from 660 to 720 they
only touch. -/
theorem overlaps_iff_inSession_small :
    let early := ofHours ⟨[.monday], 600, 660⟩
    let late := ofHours ⟨[.monday], 659, 720⟩
    let next := ofHours ⟨[.monday], 660, 720⟩
    early.Schedulable ∧ early.overlaps late = true ∧
      early.InSession .monday 659 ∧ late.InSession .monday 659 ∧ early.overlaps next = false := by
  intro early late next
  obtain ⟨hsched, -, hlate⟩ := overlaps_iff_inSession early late
  obtain ⟨-, -, hnext⟩ := overlaps_iff_inSession early next
  have hboth : early.InSession .monday 659 ∧ late.InSession .monday 659 := by
    unfold InSession
    decide
  exact ⟨hsched.2 (by decide), (hlate (by decide) (by decide)).1.2 (.inl ⟨.monday, 659, hboth⟩),
    hboth.1, hboth.2, (hnext (by decide) (by decide)).2 (by decide)⟩

/-- A class on Monday at 630 that takes no time overlaps one from 600 to 660, though it is never in
session. -/
theorem empty_range_overlaps :
    let v := ofHours ⟨[.monday], 630, 630⟩
    let w := ofHours ⟨[.monday], 600, 660⟩
    v.Schedulable ∧ w.Schedulable ∧ v.start ≤ v.finish ∧ w.start ≤ w.finish ∧
      v.overlaps w = true ∧ ¬ ∃ d minute, v.InSession d minute ∧ w.InSession d minute := by
  intro v w
  refine ⟨schedulable_iff.2 (by decide), schedulable_iff.2 (by decide), by decide, by decide,
    by decide, ?_⟩
  have hempty : v.finish = v.start := by decide
  rintro ⟨d, minute, ⟨-, hstart, hfinish⟩, -⟩
  rw [hempty] at hfinish
  exact Nat.lt_irrefl _ (Nat.lt_of_le_of_lt hstart hfinish)

end WeeklyHours

end CourseRegistration
