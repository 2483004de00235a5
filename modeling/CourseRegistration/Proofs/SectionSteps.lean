import CourseRegistration.Proofs.Consistency
import CourseRegistration.Proofs.SeatMoves

/-!
# What a request does to one section

A request leaves every section where it is, under its key and at its reference, and changes nothing
of it but its seats.  `Section.Step` says how: not at all, by one of the moves of places, or by
growing for a student who is then not recorded.  Only someone who has no place in the section is
given one, because rosters and holdings agree and the workflows look at the holdings.

What every such step keeps of a section, and every other time of its exam, a run keeps
(`run_keeps_section`).
-/

namespace CourseRegistration

open Journal

/-- `s.Step request records seats` says that serving `request`, with `records` taken by the
journal, can leave the section `s` with `seats`. -/
inductive Section.Step (s : Section) : Request → List Record → Seats → Prop
  /-- The section is as before. -/
  | stay {request records} : s.Step request records s.seats
  /-- A place changes hands, or the capacity changes. -/
  | move {request records seats} (move : s.seats.Move (s.seats.holds · = false) seats) :
      s.Step request records seats
  /-- The section grows for a student who is not recorded. -/
  | raise {id} (full : s.seats.isFull = true) (fits : s.seats.capacity.toNat + 1 < UInt64.size) :
      s.Step (.staffEnroll id s.key) [s.record (.resize s.key (s.seats.capacity + 1) [])]
        s.seats.raised

namespace Registry

variable {r r' : Registry} {now : Instant} {request : Request} {records : List Record}
  {id : StudentId} {key key' : SectionKey} {student : Student} {group : GroupId}
  {ref ref' : Catalog.Ref} {s s' : Section} {seats : Seats}

/-- The section under a key takes a step, or there is none before and after. -/
def StepAt (r : Registry) (request : Request) (records : List Record) (r' : Registry)
    (key : SectionKey) : Prop :=
  r.catalog.lookup key = none ∧ r'.catalog.lookup key = none ∨
  ∃ ref s seats, r.catalog.lookup key = some (ref, s) ∧
    r'.catalog.lookup key = some (ref, s.withSeats seats) ∧ s.Step request records seats

lemma stepAt_of_lookup_eq (h : r'.catalog.lookup key = r.catalog.lookup key) :
    r.StepAt request records r' key := by
  cases found : r.catalog.lookup key with
  | none => exact .inl ⟨found, h.trans found⟩
  | some p =>
    obtain ⟨ref, s⟩ := p
    exact .inr ⟨ref, s, s.seats, found, h.trans found, .stay⟩

/-- Replacing the seats of one section is a step there and no change elsewhere. -/
lemma stepAt_putSeats (found : r.catalog.lookup key = some (ref, s))
    (step : s.Step request records seats)
    (hcatalog : r'.catalog = (r.putSection ref (s.withSeats seats)).catalog) (key' : SectionKey) :
    r.StepAt request records r' key' := by
  by_cases hkey : key' = key
  · subst hkey
    refine .inr ⟨ref, s, seats, found, ?_, step⟩
    rw [hcatalog]
    exact lookup_putSeats_self found seats
  · apply stepAt_of_lookup_eq
    rw [hcatalog]
    exact lookup_putSeats_of_ne found seats hkey

/-- Whoever holds no group of a course, or another one, has no place in the section. -/
lemma Consistent.not_holds (hr : r.Consistent) (known : r.students.get? id = some student)
    (found : r.catalog.lookup key = some (ref, s))
    (other : student.courses.get? key.course ≠ some key.group) : s.seats.holds id = false := by
  rw [Bool.eq_false_iff]
  intro hholds
  have hplace := (Ledger.hasPlace_of_seats (seats_ledger found)).2 hholds
  apply other
  rw [← held_ledger known]
  exact (hr.agrees.hasPlace_iff id key).1 hplace

/-- **Every section takes a step with every effect of a request.** -/
theorem Effect.stepAt (h : r.Effect now request records r') (hr : r.Consistent)
    (key' : SectionKey) : r.StepAt request records r' key' := by
  cases h with
  | nothing => exact stepAt_of_lookup_eq rfl
  | enroll known _ found _ _ _ fresh _ vacant =>
    have hnew := hr.not_holds known found (by rw [fresh]; nofun)
    exact stepAt_putSeats found (.move (.give hnew vacant)) rfl key'
  | drop _ _ _ _ found => exact stepAt_putSeats found (.move (.vacate _)) rfl key'
  | @switchGroup id key student group ref source ref' destination total place known _ _ holds other
      found found' _ _ _ _ _ vacant =>
    have hnew := hr.not_holds known found' (by rw [holds]; exact fun h => other (Option.some.inj h))
    have hfound' := lookup_putSeats_of_other found other found' (source.seats.vacate id)
    by_cases hkey : key' = key
    · subst hkey
      refine .inr ⟨ref', destination, _, found', ?_, .move (.give hnew vacant)⟩
      exact lookup_putSeats_self hfound' _
    · -- elsewhere only the group that the student leaves has changed
      have helse := lookup_putSeats_of_ne hfound' (destination.seats.give id place) hkey
      rcases stepAt_putSeats found (.move (.vacate id)) rfl key' with
        ⟨hnone, hnone'⟩ | ⟨ref₁, s, seats, hs, hs', step⟩
      · exact .inl ⟨hnone, helse.trans hnone'⟩
      · exact .inr ⟨ref₁, s, seats, hs, helse.trans hs', step⟩
  | @staffEnroll id key student ref wanted known found fresh room =>
    have hnew := hr.not_holds known found (by rw [fresh]; nofun)
    have vacant : wanted.seats.nextPlace = some .registered := by
      refine Seats.nextPlace_eq_some_iff.2 (.inl ⟨rfl, ?_⟩)
      rw [← Nat.not_le, ← Seats.isFull_iff, room]
      exact Bool.false_ne_true
    exact stepAt_putSeats found (.move (.give hnew vacant)) rfl key'
  | raise _ found _ full fits =>
    obtain rfl := hr.sound.catalog.key_of_lookup found
    exact stepAt_putSeats found (.raise full fits) rfl key'
  | raiseAndEnroll known found fresh full fits =>
    have hnew := hr.not_holds known found (by rw [fresh]; nofun)
    exact stepAt_putSeats found (.move (.raiseAndGive hnew full fits)) rfl key'
  | staffDrop _ _ found => exact stepAt_putSeats found (.move (.vacate _)) rfl key'
  | resize found enough => exact stepAt_putSeats found (.move (.resize enough)) rfl key'

/-- What replacing the seats of one section keeps of a catalog, every effect of a request keeps. -/
lemma Effect.catalog_keeps {P : Catalog → Prop} (h : r.Effect now request records r')
    (keeps : ∀ {c : Catalog} {ref s seats}, c.get? ref = some s → P c →
      P (c.set ref (s.withSeats seats))) (hP : P r.catalog) : P r'.catalog := by
  cases h with
  | nothing => exact hP
  | enroll _ _ found => exact keeps (Catalog.get?_of_lookup found) hP
  | drop _ _ _ _ found => exact keeps (Catalog.get?_of_lookup found) hP
  | switchGroup _ _ _ _ other found found' =>
    exact keeps (Catalog.get?_of_lookup (lookup_putSeats_of_other found other found' _))
      (keeps (Catalog.get?_of_lookup found) hP)
  | staffEnroll _ found => exact keeps (Catalog.get?_of_lookup found) hP
  | @raise _ _ _ _ wanted _ found =>
    exact keeps (s := wanted) (Catalog.get?_of_lookup found) hP
  | @raiseAndEnroll _ _ _ _ wanted _ found =>
    exact keeps (s := wanted) (Catalog.get?_of_lookup found) hP
  | staffDrop _ _ found => exact keeps (Catalog.get?_of_lookup found) hP
  | resize found => exact keeps (Catalog.get?_of_lookup found) hP

lemma Effect.departments_eq (h : r.Effect now request records r') :
    r'.departments = r.departments := by
  cases h <;> rfl

/-! ## The time of an exam -/

lemma departments_setExamTime (r : Registry) (ref : Catalog.Ref) (time : Int64) :
    (r.setExamTime ref time).departments = r.departments := by
  unfold Registry.setExamTime
  split <;> rfl

/-- Setting the time of an exam is seen at its own section only. -/
lemma lookup_setExamTime (hr : r.Sound) (ref : Catalog.Ref) (time : Int64) (key : SectionKey) :
    (r.setExamTime ref time).catalog.lookup key = (r.catalog.lookup key).map fun (ref', s) =>
      (ref', if ref' = ref then { s with examTime := time } else s) := by
  unfold Registry.setExamTime
  cases hget : r.catalog.get? ref with
  | none =>
    show r.catalog.lookup key = _
    cases found : r.catalog.lookup key with
    | none => rfl
    | some p =>
      obtain ⟨ref', s⟩ := p
      have hne : ref' ≠ ref := by
        rintro rfl
        rw [Catalog.get?_of_lookup found] at hget
        cases hget
      simp [hne]
  | some t =>
    have hlookup := hr.catalog.lookup_key hget
    refine (Catalog.lookup_set hlookup { t with examTime := time } rfl key).trans ?_
    split_ifs with hkey
    · subst hkey
      simp [hlookup]
    · cases found : r.catalog.lookup key with
      | none => rfl
      | some p =>
        obtain ⟨ref', s⟩ := p
        have hne : ref' ≠ ref := by
          rintro rfl
          exact hkey (Catalog.key_eq_of_lookup hlookup found)
        simp [hne]

/-! ## What every step keeps -/

/-- `P` holds of the section under the key, if there is one. -/
def SectionAt (P : Section → Prop) (r : Registry) (key : SectionKey) : Prop :=
  ∀ ref s, r.catalog.lookup key = some (ref, s) → P s

variable {P : Section → Prop}

lemma StepAt.sectionAt (h : r.StepAt request records r' key)
    (keeps : ∀ {ref s seats}, r.catalog.lookup key = some (ref, s) →
      s.Step request records seats → P s → P (s.withSeats seats))
    (hP : r.SectionAt P key) : r'.SectionAt P key := by
  intro ref s hs
  rcases h with ⟨-, hnone⟩ | ⟨ref₀, s₀, seats, found, found', step⟩
  · rw [hnone] at hs
    cases hs
  · rw [found'] at hs
    cases hs
    exact keeps found step (hP _ _ found)

lemma SectionAt.setExamTime (hr : r.Sound) (hP : r.SectionAt P key) (ref : Catalog.Ref)
    (time : Int64) (keeps : ∀ {s}, P s → P { s with examTime := time }) :
    (r.setExamTime ref time).SectionAt P key := by
  intro ref' s hs
  rw [lookup_setExamTime hr] at hs
  obtain ⟨⟨ref₀, s₀⟩, found, heq⟩ := Option.map_eq_some_iff.1 hs
  rw [← (Prod.mk.inj heq).2]
  split_ifs
  · exact keeps (hP ref₀ s₀ found)
  · exact hP ref₀ s₀ found

end Registry

/-- **What every step and every time of an exam keep of a section, every run keeps.** -/
theorem Office.run_keeps_section {P : Section → Prop} {key : SectionKey}
    (step : ∀ {s : Section} {request records seats}, s.seats.Orderly →
      s.Step request records seats → P s → P (s.withSeats seats))
    (examTime : ∀ {s : Section} time, P s → P { s with examTime := time })
    (turns : List Turn) {o : Office} (hr : o.registry.Consistent)
    (start : o.registry.SectionAt P key) : (o.run turns).2.registry.SectionAt P key := by
  have hkept := run_keeps (P := fun _ r => r.Consistent ∧ r.SectionAt P key) ?_ ?_ turns []
    ⟨hr, start⟩
  · exact hkept.2
  · rintro log now r request records r' ⟨hr, hP⟩ effect
    refine ⟨effect.consistent hr, (effect.stepAt hr key).sectionAt (fun found h => ?_) hP⟩
    exact step (hr.agrees.orderly (Registry.seats_ledger found)) h
  · rintro log r ref time ⟨hr, hP⟩
    exact ⟨hr.setExamTime ref time, hP.setExamTime hr.sound ref time (examTime time)⟩

end CourseRegistration
