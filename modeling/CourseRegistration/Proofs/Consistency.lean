import CourseRegistration.Proofs.Ledger
import CourseRegistration.Proofs.Run

/-!
# Rosters and holdings agree

A registry is `Consistent` if its two accounts of who has a place where say the same: a student has
a place in a section exactly when the student holds its group of its course, and nobody has two
places in one section.  Since a student holds at most one group of a course, nobody then has places
in two groups of one course.

Consistency is kept by every step of the ledger (`Step.agrees`), hence by every effect of a request
(`Effect.consistent`).  And in a consistent registry no workflow and no query meets a fault: the
sections that students hold exist and have them.
-/

namespace CourseRegistration

open Journal Check

namespace Ledger

/-- The student has a place in the section. -/
def HasPlace (l : Ledger) (id : StudentId) (key : SectionKey) : Prop :=
  ∃ s, l.seats key = some s ∧ s.holds id = true

/-- Both accounts say the same, and nobody has two places in a section. -/
structure Agrees (l : Ledger) : Prop where
  /-- Nobody has two places in a section. -/
  orderly : ∀ {key s}, l.seats key = some s → s.Orderly
  /-- A student has a place exactly in the sections that the student holds. -/
  hasPlace_iff : ∀ id key, l.HasPlace id key ↔ l.held id key.course = some key.group

variable {l l' : Ledger} {key key' : SectionKey} {s s' t : Seats} {id id' : StudentId}
  {course : CourseId} {group : Option GroupId} {entry : Entry} {entries : List Entry}

lemma hasPlace_of_seats (h : l.seats key = some s) :
    l.HasPlace id key ↔ s.holds id = true := by
  simp [HasPlace, h]

lemma hasPlace_seat :
    (l.seat key s).HasPlace id key' ↔
      if key' = key then s.holds id = true else l.HasPlace id key' := by
  unfold HasPlace
  split_ifs with h <;> simp [h]

@[simp] lemma hasPlace_assign : (l.assign id course group).HasPlace id' key ↔ l.HasPlace id' key :=
  Iff.rfl

lemma orderly_seat (hl : l.Agrees) (hs : s.Orderly) (h : (l.seat key s).seats key' = some t) :
    t.Orderly := by
  rw [seats_seat] at h
  split_ifs at h
  · cases h
    exact hs
  · exact hl.orderly h

/-! ## What the steps keep -/

private lemma eq_key_iff : key' = key ↔ key'.course = key.course ∧ key'.group = key.group := by
  cases key
  cases key'
  simp

namespace Agrees

/-- A student who holds no group of a course has no place in any of them. -/
lemma not_holds (hl : l.Agrees) (found : l.seats key = some s)
    (fresh : l.held id key.course = none) : s.holds id = false := by
  rw [Bool.eq_false_iff]
  intro h
  rw [(hl.hasPlace_iff id key).1 ((hasPlace_of_seats found).2 h)] at fresh
  cases fresh

/-- A student who holds no group of a course gets a place in one. -/
lemma give (hl : l.Agrees) (key : SectionKey) (id : StudentId) (found : l.seats key = some s)
    (fresh : l.held id key.course = none) (place : Place) :
    ((l.seat key (s.give id place)).assign id key.course (some key.group)).Agrees := by
  have hid := hl.not_holds found fresh
  refine ⟨orderly_seat hl ((hl.orderly found).give hid place), fun id' key' => ?_⟩
  have hold := hl.hasPlace_iff id' key'
  rw [hasPlace_assign, hasPlace_seat, held_assign, held_seat]
  by_cases hkey : key' = key
  · -- at this section the newcomer is added on both sides
    subst hkey
    rw [if_pos rfl, Seats.holds_give, ← hasPlace_of_seats found, hold]
    by_cases h : id' = id <;> simp [h]
  · rw [if_neg hkey, hold]
    split_ifs with h
    · obtain ⟨rfl, hcourse⟩ := h
      rw [hcourse, fresh, Option.some.injEq]
      exact iff_of_false nofun fun hg => hkey (eq_key_iff.2 ⟨hcourse, hg.symm⟩)
    · rfl

/-- A student loses the place in the group that the student holds. -/
lemma vacate (hl : l.Agrees) (key : SectionKey) (holds : l.held id key.course = some key.group)
    (found : l.seats key = some s) :
    ((l.seat key (s.vacate id)).assign id key.course none).Agrees := by
  have hs := hl.orderly found
  refine ⟨orderly_seat hl (hs.vacate id), fun id' key' => ?_⟩
  have hold := hl.hasPlace_iff id' key'
  rw [hasPlace_assign, hasPlace_seat, held_assign, held_seat]
  by_cases hkey : key' = key
  · subst hkey
    rw [if_pos rfl, Seats.holds_vacate hs, ← hasPlace_of_seats found, hold]
    by_cases h : id' = id <;> simp [h]
  · rw [if_neg hkey, hold]
    split_ifs with h
    · -- the student held this course at another group, so had no place here
      obtain ⟨rfl, hcourse⟩ := h
      rw [hcourse, holds, Option.some.injEq]
      exact iff_of_false (fun hg => hkey (eq_key_iff.2 ⟨hcourse, hg.symm⟩)) nofun
    · rfl

/-- Seats that the same students have can replace each other. -/
lemma reseat (hl : l.Agrees) (found : l.seats key = some s) (hs : s'.Orderly)
    (hsame : ∀ x, s'.holds x = true ↔ s.holds x = true) : (l.seat key s').Agrees := by
  refine ⟨orderly_seat hl hs, fun id' key' => ?_⟩
  rw [hasPlace_seat, held_seat, ← hl.hasPlace_iff]
  split_ifs with hkey
  · rw [hkey, hasPlace_of_seats found, hsame]
  · rfl

/-- Whoever has a place has no other in the course. -/
lemma group_unique (hl : l.Agrees) (h : l.HasPlace id key) (h' : l.HasPlace id key')
    (hcourse : key'.course = key.course) : key' = key := by
  have hg := (hl.hasPlace_iff id key).1 h
  rw [← hcourse, (hl.hasPlace_iff id key').1 h', Option.some.injEq] at hg
  exact eq_key_iff.2 ⟨hcourse, hg⟩

end Agrees

/-- **Every step keeps the two accounts in agreement.** -/
theorem Step.agrees (h : Step l entry l') (hl : l.Agrees) : l'.Agrees := by
  cases h with
  | enroll place found fresh => exact hl.give _ _ found fresh place
  | drop key holds found => exact hl.vacate key holds found
  | @switchGroup id key source s t place holds other found found' =>
    -- a move is a loss followed by a gain
    have hleft := hl.vacate ⟨key.course, source⟩ holds found
    have hne : key ≠ ⟨key.course, source⟩ := fun h => other (congrArg SectionKey.group h).symm
    have hgiven := hleft.give key id (s := t) (by simpa [hne] using found')
      (by simp) place
    rwa [seat_assign, assign_assign] at hgiven
  | resize capacity found =>
    exact hl.reseat found ((hl.orderly found).resize capacity) fun _ => Seats.holds_resize
  | raise capacity found =>
    have hs := hl.orderly found
    exact hl.reseat found ⟨hs.nodup, hs.separate⟩ fun _ => Iff.rfl

theorem Path.agrees (h : Path l entries l') (hl : l.Agrees) : l'.Agrees := by
  induction h with
  | nil => exact hl
  | cons step _ ih => exact ih (step.agrees hl)

end Ledger

namespace Registry

/-- Sections and students are found where they belong, and rosters and holdings agree. -/
structure Consistent (r : Registry) : Prop where
  sound : r.Sound
  agrees : r.ledger.Agrees

variable {r r' : Registry} {now : Instant} {request : Request} {records : List Record}
  {id : StudentId} {key : SectionKey} {student : Student} {course : CourseId} {group : GroupId}
  {ref ref' : Catalog.Ref} {s t : Section}

/-- **Every effect of a request keeps a registry consistent.** -/
theorem Effect.consistent (h : r.Effect now request records r') (hr : r.Consistent) :
    r'.Consistent :=
  ⟨h.sound hr.sound, (h.path hr.sound).agrees hr.agrees⟩

lemma Consistent.setExamTime (hr : r.Consistent) (ref : Catalog.Ref) (time : Int64) :
    (r.setExamTime ref time).Consistent := by
  refine ⟨hr.sound.setExamTime ref time, ?_⟩
  rw [hr.sound.ledger_setExamTime]
  exact hr.agrees

/-- A run leaves a consistent registry consistent. -/
lemma Consistent.run {o : Office} (hr : o.registry.Consistent) (turns : List Turn) :
    (o.run turns).2.registry.Consistent :=
  Office.run_keeps (P := fun _ r => r.Consistent) (fun h effect => effect.consistent h)
    (fun ref time h => h.setExamTime ref time) turns [] hr

/-- The induction for statements about some runs from a consistent registry. -/
theorem Consistent.run_keeps_while {P H : Registry → Prop} {Q : Report Response → Prop}
    (turns : List Turn)
    (step : ∀ {o : Office}, ∀ t ∈ turns, o.registry.Consistent → P o.registry →
      (∀ p ∈ (o.turn t).1, Q p) → H (o.turn t).2.registry → P (o.turn t).2.registry)
    {o : Office} (hr : o.registry.Consistent) (start : P o.registry)
    (reports : ∀ p ∈ (o.run turns).1, Q p)
    (states : ∀ earlier, earlier <+: turns → H (o.run earlier).2.registry) :
    P (o.run turns).2.registry := by
  have hkept := Office.run_keeps_while (P := fun r => r.Consistent ∧ P r) turns ?_ ⟨hr, start⟩
    reports states
  · exact hkept.2
  · rintro o t ht ⟨hr, hP⟩ hreports hstate
    have hnext := hr.run [t]
    rw [Office.run_singleton] at hnext
    exact ⟨hnext, step t ht hr hP hreports hstate⟩

/-! ## No faults -/

/-- A section that a student holds exists and has the student. -/
lemma Consistent.held_found (hr : r.Consistent) (known : r.students.get? id = some student)
    (holds : student.courses.get? course = some group) :
    ∃ ref s, r.catalog.lookup ⟨course, group⟩ = some (ref, s) ∧ s.seats.holds id = true := by
  have hplace : r.ledger.HasPlace id ⟨course, group⟩ :=
    (hr.agrees.hasPlace_iff id ⟨course, group⟩).2 (by rw [held_ledger known, holds])
  obtain ⟨seats, hseats, hholds⟩ := hplace
  obtain ⟨⟨ref, s⟩, hfound, rfl⟩ := Option.map_eq_some_iff.1 hseats
  exact ⟨ref, s, hfound, hholds⟩

lemma mem_held : key ∈ student.held ↔ student.courses.get? key.course = some key.group := by
  simp only [Student.held, List.mem_map, Prod.exists, OrderedMap.get?_eq_some_iff]
  constructor
  · rintro ⟨course, group, hmem, rfl⟩
    exact hmem
  · intro hmem
    exact ⟨key.course, key.group, hmem, rfl⟩

lemma Consistent.heldSection_eq (hr : r.Consistent) (known : r.students.get? id = some student)
    (holds : student.courses.get? course = some group) :
    ∃ ref s, r.heldSection id ⟨course, group⟩ = .ok (ref, s) ∧ s.seats.holds id = true := by
  obtain ⟨ref, s, hfound, hholds⟩ := hr.held_found known holds
  exact ⟨ref, s, heldSection_eq_ok.2 hfound, hholds⟩

lemma Consistent.checkClashes_faultless (hr : r.Consistent)
    (known : r.students.get? id = some student) (wanted : Section) {keys : List SectionKey}
    (hkeys : ∀ key ∈ keys, key ∈ student.held) : (r.checkClashes id wanted keys).Faultless := by
  induction keys with
  | nil => exact .ok ()
  | cons key rest ih =>
    have hkey := mem_held.1 (hkeys key List.mem_cons_self)
    obtain ⟨ref, held, hheld, -⟩ := hr.heldSection_eq known hkey
    unfold Registry.checkClashes
    rw [hheld]
    show Check.Faultless (if _ then _ else _)
    split_ifs
    · exact fun what notes h => by cases h
    · exact fun what notes h => by cases h
    · exact ih fun key hkey => hkeys key (List.mem_cons_of_mem _ hkey)

lemma totalWith_faultless {total : UInt16} {units : UInt8} : (totalWith total units).Faultless := by
  unfold totalWith
  split
  · exact .ok _
  · exact fun what notes h => by cases h

lemma Consistent.enroll_faultless (hr : r.Consistent) : (r.enroll now id key).Faultless := by
  refine Faultless.expect_bind nofun fun student known => ?_
  refine Faultless.require_bind nofun fun _ => ?_
  refine Faultless.expect_bind nofun fun (ref, wanted) _ => ?_
  refine Faultless.require_bind nofun fun _ => ?_
  refine totalWith_faultless.bind fun units _ => ?_
  refine Faultless.require_bind nofun fun _ => ?_
  refine Faultless.require_bind nofun fun _ => ?_
  refine (hr.checkClashes_faultless known wanted fun _ h => h).bind fun _ _ => ?_
  refine Faultless.bind ?_ fun plan _ => ?_
  · unfold Section.grant
    split <;> exact .ok _
  · exact Faultless.require_bind nofun fun _ => .pure _

lemma Consistent.releaseCourse_faultless (hr : r.Consistent)
    (known : r.students.get? id = some student) (after : Student → Student) :
    (r.releaseCourse student course after).Faultless := by
  obtain rfl := hr.sound.filed known
  refine Faultless.expect_bind nofun fun group holds => ?_
  obtain ⟨ref, held, hheld, hholds⟩ := hr.heldSection_eq known holds
  rw [hheld]
  show Check.Faultless (held.release student.id >>= _)
  refine Faultless.bind ?_ fun plan _ => .pure _
  unfold Section.release
  rw [hholds]
  exact Faultless.bind (.ok ()) fun _ _ => .pure _

lemma Consistent.drop_faultless (hr : r.Consistent) : (r.drop now id course).Faultless := by
  refine Faultless.expect_bind nofun fun student known => ?_
  refine Faultless.require_bind nofun fun _ => ?_
  refine Faultless.require_bind nofun fun _ => ?_
  exact hr.releaseCourse_faultless known _

lemma Consistent.staffDrop_faultless (hr : r.Consistent) : (r.staffDrop id course).Faultless := by
  refine Faultless.expect_bind nofun fun student known => ?_
  exact hr.releaseCourse_faultless known _

/-- Two groups of one course can be used for a transfer of a student of the first. -/
lemma transfer_faultless (hcourse : s.key.course = t.key.course)
    (hgroup : s.key.group ≠ t.key.group) (hholds : s.seats.holds id = true) :
    (s.transfer t id).Faultless := by
  unfold Section.transfer
  rw [hholds, hcourse]
  simp only [decide_true, Bool.true_and]
  rw [bne_iff_ne.2 hgroup]
  refine Faultless.bind (.ok ()) fun _ _ => Faultless.bind (.ok ()) fun _ _ => ?_
  split <;> exact .pure _

lemma Consistent.switchGroup_faultless (hr : r.Consistent) :
    (r.switchGroup now id key).Faultless := by
  refine Faultless.expect_bind nofun fun student known => ?_
  refine Faultless.require_bind nofun fun _ => ?_
  refine Faultless.require_bind nofun fun _ => ?_
  refine Faultless.expect_bind nofun fun group holds => ?_
  refine Faultless.require_bind nofun fun other => ?_
  rw [bne_iff_ne] at other
  obtain ⟨ref, source, hfound, hholds⟩ := hr.held_found known holds
  rw [heldSection_eq_ok.2 hfound]
  show Check.Faultless (r.offered key >>= _)
  refine Faultless.expect_bind nofun fun (ref', destination) hfound' => ?_
  refine Faultless.require_bind nofun fun _ => ?_
  refine totalWith_faultless.bind fun total _ => ?_
  refine Faultless.require_bind nofun fun _ => ?_
  refine (hr.checkClashes_faultless known destination fun _ h => List.mem_of_mem_filter h).bind
    fun _ _ => ?_
  have hsource := hr.sound.catalog.key_of_lookup hfound
  have hdestination := hr.sound.catalog.key_of_lookup hfound'
  refine (transfer_faultless (by rw [hsource, hdestination]) ?_ hholds).bind fun plan _ => ?_
  · rw [hsource, hdestination]
    exact other
  · exact Faultless.require_bind nofun fun _ => .pure _

lemma staffEnroll_faultless : (r.staffEnroll id key).Faultless := by
  refine Faultless.expect_bind nofun fun student _ => ?_
  refine Faultless.expect_bind nofun fun (ref, wanted) _ => ?_
  refine Faultless.require_bind nofun fun _ => ?_
  refine Faultless.bind ?_ fun plan _ => .pure _
  unfold Section.grantByForce
  split_ifs
  · exact .ok _
  · exact fun what notes h => by cases h
  · exact .ok _

lemma resize_faultless {capacity : UInt64} : (r.resize ref s capacity).Faultless := by
  refine Faultless.bind ?_ fun plan _ => .pure _
  refine Faultless.require_bind nofun fun _ => ?_
  split_ifs <;> exact .pure _

lemma Consistent.coursesOf_faultless (hr : r.Consistent) : (r.coursesOf id).Faultless := by
  refine Faultless.expect_bind nofun fun student known => Faultless.mapM fun key hkey => ?_
  obtain ⟨ref, s, hheld, hholds⟩ := hr.heldSection_eq known (mem_held.1 hkey)
  rw [hheld]
  show Check.Faultless (s.seenBy id)
  obtain ⟨n, hn⟩ := Option.isSome_iff_exists.1 (Seats.position?_isSome_iff.2 hholds)
  unfold Section.seenBy
  rw [hn]
  exact .ok _

end Registry

end CourseRegistration
