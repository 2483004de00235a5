import CourseRegistration.Proofs.Enrollment
import Mathlib.Algebra.BigOperators.Group.List.Basic

/-!
# A change of group moves one place

A successful change of group takes one place away in the group that the student leaves and gives one
in the group that the student comes to.  `Seats.Leaves` and `Seats.Joins` say who is affected by
either, `Registry.Transferred` what becomes of the whole registry, and `run_switchGroup_moved` that
every change of group that goes through is of this form.  Which of the two groups has the smaller
number makes no difference (`Section.transfer_inGroup`).

The total of units loses the units of the old group only as far as it can.  If more units were held
once than a word can count, staff can bring it down to zero while the student still holds a course
(`change_of_group_keeps_zero`).
-/

namespace CourseRegistration

open Journal Check

/-! ## Places -/

namespace Seats

/-- How many places are taken. -/
def places (s : Seats) : Nat :=
  s.registered.size + s.waitlist.length

/-- How many places the student has. -/
def placesOf (s : Seats) (x : StudentId) : Nat :=
  s.registered.items.count x + s.waitlist.count x

/-- The student gives up the only place that the student has.  If that is a registered seat, the
head of the waitlist gets it; nobody else moves. -/
structure Leaves (s : Seats) (x : StudentId) (s' : Seats) : Prop where
  once : s.placesOf x = 1
  gone : s'.placesOf x = 0
  registered : ∀ y, y ∈ s'.registered ↔
    y ≠ x ∧ y ∈ s.registered ∨ x ∈ s.registered ∧ s.waitlist.head? = some y
  waitlist : s'.waitlist = if x ∈ s.registered then s.waitlist.tail else s.waitlist.erase x
  capacity : s'.capacity = s.capacity
  reserve : s'.reserve = s.reserve

variable {s : Seats} {x : StudentId} {place : Place}

lemma placesOf_eq_zero (h : s.holds x = false) : s.placesOf x = 0 := by
  have hnone := not_holds_iff.1 h
  rw [placesOf, List.count_eq_zero_of_not_mem hnone.1, List.count_eq_zero_of_not_mem hnone.2]

/-- Where nobody has two places, whoever has one has exactly one. -/
lemma Orderly.placesOf_eq_one (hs : s.Orderly) (h : s.holds x = true) : s.placesOf x = 1 := by
  rcases holds_iff.1 h with hreg | hwait
  · have hcount := List.count_eq_one_of_mem s.registered.nodup_items hreg
    rw [placesOf, hcount, List.count_eq_zero_of_not_mem (hs.separate hreg)]
  · have hreg : x ∉ s.registered.items := fun hreg => hs.separate hreg hwait
    rw [placesOf, List.count_eq_zero_of_not_mem hreg, List.count_eq_one_of_mem hs.nodup hwait]

lemma Orderly.leaves_vacate (hs : s.Orderly) (h : s.holds x = true) : s.Leaves x (s.vacate x) := by
  have hgone : (s.vacate x).placesOf x = 0 := placesOf_eq_zero <| Bool.eq_false_iff.2 fun hx =>
    ((holds_vacate hs).1 hx).1 rfl
  rcases vacate_cases s x with ⟨hx, hw, he⟩ | ⟨next, rest, hx, hw, he⟩ | ⟨hx, he⟩
  · refine ⟨hs.placesOf_eq_one h, hgone, fun y => ?_, ?_, ?_, ?_⟩ <;> simp [he, hx, hw]
  · refine ⟨hs.placesOf_eq_one h, hgone, fun y => ?_, ?_, ?_, ?_⟩
    · simp only [he, hw, OrderedSet.mem_insert, OrderedSet.mem_erase, List.head?_cons,
        Option.some.injEq, hx, true_and]
      rw [or_comm, eq_comm]
    all_goals simp [he, hx, hw]
  · refine ⟨hs.placesOf_eq_one h, hgone, fun y => ?_, ?_, ?_, ?_⟩
    · have hne : y ∈ s.registered → y ≠ x := fun hy heq => hx (heq ▸ hy)
      simp only [he, hx, false_and, or_false]
      exact ⟨fun hy => ⟨hne hy, hy⟩, fun hy => hy.2⟩
    all_goals simp [he, hx]

lemma places_vacate (hs : s.Orderly) (h : s.holds x = true) :
    (s.vacate x).places + 1 = s.places := by
  rcases vacate_cases s x with ⟨hx, hw, he⟩ | ⟨next, rest, hx, hw, he⟩ | ⟨hx, he⟩
  · have hsize := OrderedSet.size_erase hx
    rw [he, places, places]
    dsimp only
    omega
  · -- the seat goes to a student who was not registered
    have hnext : next ∉ s.registered.erase x := by
      intro hreg
      refine hs.separate (OrderedSet.mem_erase.1 hreg).2 ?_
      rw [hw]
      exact List.mem_cons_self
    have hinsert := OrderedSet.size_insert hnext
    have herase := OrderedSet.size_erase hx
    have hlength := congrArg List.length hw
    rw [List.length_cons] at hlength
    rw [he, places, places]
    dsimp only
    omega
  · have hwaits : x ∈ s.waitlist := (holds_iff.1 h).resolve_left hx
    have hpos := List.length_pos_of_mem hwaits
    rw [he, places, places]
    dsimp only
    rw [List.length_erase_of_mem hwaits]
    omega

lemma places_give (hx : s.holds x = false) (place : Place) :
    (s.give x place).places = s.places + 1 := by
  cases place with
  | registered =>
    have hnew := (not_holds_iff.1 hx).1
    show (s.registered.insert x).size + s.waitlist.length = _
    rw [OrderedSet.size_insert hnew, places, Nat.add_right_comm]
  | waitlisted =>
    show s.registered.size + (s.waitlist ++ [x]).length = _
    rw [List.length_append, List.length_singleton, places, Nat.add_assoc]

end Seats

lemma Catalog.get?_set_of_ne {c : Catalog} {ref ref' : Catalog.Ref} {s : Section}
    (h : c.get? ref = some s) (hne : ref' ≠ ref) (s' : Section) :
    (c.set ref s').get? ref' = c.get? ref' :=
  (get?_set h s' ref').trans (if_neg hne)

/-- How many places are taken in all groups of the course together. -/
def Catalog.placesIn (c : Catalog) (course : CourseId) : Nat :=
  ((c.groups course).map fun s => s.seats.places).sum

/-- Replacing one element of a list replaces its summand. -/
private lemma sum_map_set {α : Type} (f : α → Nat) {l : List α} {i : Nat} {a : α}
    (h : l[i]? = some a) (b : α) :
    ((l.set i b).map f).sum + f a = (l.map f).sum + f b := by
  obtain ⟨hlt, rfl⟩ := List.getElem?_eq_some_iff.1 h
  have hset (c : α) : ((l.set i c).map f).sum =
      ((l.take i).map f).sum + f c + ((l.drop (i + 1)).map f).sum := by
    rw [List.map_set, List.sum_set, if_pos (by rwa [List.length_map]), List.map_take, List.map_drop]
  have hsame := hset l[i]
  rw [List.set_getElem_self] at hsame
  rw [hset b, hsame]
  omega

/-- Where one section is replaced, the places of its course change by those of the section. -/
lemma Catalog.placesIn_set {c : Catalog} {ref : Catalog.Ref} {s : Section}
    (h : c.get? ref = some s) (s' : Section) :
    (c.set ref s').placesIn ref.course + s.seats.places =
      c.placesIn ref.course + s'.seats.places := by
  rw [placesIn, groups_set, if_pos rfl]
  exact sum_map_set (fun s => s.seats.places) h s'

/-! ## Two groups -/

/-- The section as another group of its course. -/
def Section.inGroup (s : Section) (group : GroupId) : Section :=
  { s with key := ⟨s.key.course, group⟩ }

/-- **What a transfer comes to does not depend on the numbers of the two groups**, as long as they
are different. -/
lemma Section.transfer_inGroup {source destination : Section} {x : StudentId} {place : Place}
    {group group' : GroupId} (hcourse : source.key.course = destination.key.course)
    (hne : group ≠ group') (seated : source.seats.holds x = true)
    (vacant : destination.seats.nextPlace = some place) :
    ∃ event, (source.inGroup group).transfer (destination.inGroup group') x = .ok ⟨[⟨
      ⟨source.department, .switchGroup x ⟨source.key.course, group'⟩⟩,
      ((source.withSeats (source.seats.vacate x)).inGroup group,
        (destination.withSeats (destination.seats.give x place)).inGroup group'),
      event⟩], true⟩ := by
  have hgroups : ((source.inGroup group).key.course = (destination.inGroup group').key.course &&
      (source.inGroup group).key.group != (destination.inGroup group').key.group) = true := by
    rw [Bool.and_eq_true, decide_eq_true_eq, bne_iff_ne]
    exact ⟨hcourse, hne⟩
  have seated' : (source.inGroup group).seats.holds x = true := seated
  have vacant' : (destination.inGroup group').seats.nextPlace = some place := vacant
  simp only [Section.transfer, hgroups, seated', vacant', require_true, ok_bind]
  exact ⟨_, rfl⟩

namespace Registry

/-- The student holds one group of a course and may hold another one in its place. -/
structure CanSwitch (r : Registry) (id : StudentId) (key : SectionKey) (student : Student)
    (group : GroupId) (ref : Catalog.Ref) (source : Section) (ref' : Catalog.Ref)
    (destination : Section) : Prop where
  known : r.students.get? id = some student
  holds : student.courses.get? key.course = some group
  other : group ≠ key.group
  found : r.catalog.lookup ⟨key.course, group⟩ = some (ref, source)
  found' : r.catalog.lookup key = some (ref', destination)
  admitted : destination.lock.admits student.gender = true
  /-- Nothing that is held of other courses is in conflict with the new group. -/
  clear : ∀ held ∈ student.held, held.course ≠ key.course →
    ∃ at' s, r.catalog.lookup held = some (at', s) ∧ s.Clear destination

/-- The student has left one group of a course and joined another, and has become `student'`.
Nothing else has changed. -/
structure Transferred (r : Registry) (id : StudentId) (key : SectionKey) (student : Student)
    (ref : Catalog.Ref) (source : Section) (ref' : Catalog.Ref) (destination : Section)
    (left joined : Seats) (student' : Student) (r' : Registry) : Prop where
  leaves : source.seats.Leaves id left
  joins : destination.seats.Joins id joined
  once : joined.placesOf id = 1
  apart : ref ≠ ref'
  sections : ∀ at', r'.catalog.get? at' =
    if at' = ref then some (source.withSeats left)
    else if at' = ref' then some (destination.withSeats joined)
    else r.catalog.get? at'
  places : r'.catalog.placesIn key.course = r.catalog.placesIn key.course
  units : student'.units.toNat =
    student.units.toNat + destination.units.toNat - source.units.toNat
  actions : student'.actions.toNat + 1 = student.actions.toNat
  holdings : student' = { student with
    units := student'.units
    actions := student'.actions
    courses := student.courses.insert key.course key.group }
  students : ∀ id', r'.students.get? id' =
    if id' = id then some student' else r.students.get? id'
  departments : r'.departments = r.departments

variable {r r' : Registry} {now : Instant} {id : StudentId} {key : SectionKey} {record : Record}

section

variable {student : Student} {group : GroupId} {ref ref' : Catalog.Ref}
  {source destination : Section}

/-- Two groups of a course are not at one reference. -/
lemma Sound.apart (hr : r.Sound) (other : group ≠ key.group)
    (found : r.catalog.lookup ⟨key.course, group⟩ = some (ref, source))
    (found' : r.catalog.lookup key = some (ref', destination)) : ref ≠ ref' := by
  rintro rfl
  have hsame : some source = some destination :=
    (Catalog.get?_of_lookup found).symm.trans (Catalog.get?_of_lookup found')
  obtain rfl := Option.some.inj hsame
  have hkey := (hr.catalog.key_of_lookup found).symm.trans (hr.catalog.key_of_lookup found')
  exact other (congrArg SectionKey.group hkey)

variable (apart : ref ≠ ref') (found : r.catalog.get? ref = some source)
  (found' : r.catalog.get? ref' = some destination) (place : Place) (student : Student)
include apart found found'

lemma get?_moved (at' : Catalog.Ref) :
    (r.moved ref source ref' destination place student).catalog.get? at' =
      if at' = ref then some (source.withSeats (source.seats.vacate student.id))
      else if at' = ref' then some (destination.withSeats (destination.seats.give student.id place))
      else r.catalog.get? at' := by
  have hafter := (Catalog.get?_set_of_ne found apart.symm
    (source.withSeats (source.seats.vacate student.id))).trans found'
  show ((r.catalog.set ref _).set ref' _).get? at' = _
  rw [Catalog.get?_set hafter, Catalog.get?_set found]
  by_cases hat : at' = ref
  · rw [if_pos hat, if_pos hat, if_neg (hat ▸ apart)]
  · rw [if_neg hat, if_neg hat]

/-- The place that one group loses the other one gains. -/
lemma placesIn_moved (hcourse : ref.course = ref'.course) (orderly : source.seats.Orderly)
    (seated : source.seats.holds student.id = true)
    (hnew : destination.seats.holds student.id = false) :
    (r.moved ref source ref' destination place student).catalog.placesIn ref.course =
      r.catalog.placesIn ref.course := by
  have hafter := (Catalog.get?_set_of_ne found apart.symm
    (source.withSeats (source.seats.vacate student.id))).trans found'
  have hleft := Catalog.placesIn_set found (source.withSeats (source.seats.vacate student.id))
  have hjoined := Catalog.placesIn_set hafter
    (destination.withSeats (destination.seats.give student.id place))
  have hless := Seats.places_vacate orderly seated
  have hmore := Seats.places_give hnew place
  rw [← hcourse] at hjoined
  show ((r.catalog.set ref _).set ref' _).placesIn ref.course = _
  simp only [Section.withSeats] at hleft hjoined ⊢
  omega

end

/-- The registry in which the student has moved is the one after a transfer. -/
lemma transferred_moved {student : Student} {group : GroupId} {ref ref' : Catalog.Ref}
    {source destination : Section} {total : UInt16} {place : Place} (hr : r.Consistent)
    (known : r.students.get? student.id = some student) (able : student.actions ≠ 0)
    (holds : student.courses.get? key.course = some group) (other : group ≠ key.group)
    (found : r.catalog.lookup ⟨key.course, group⟩ = some (ref, source))
    (found' : r.catalog.lookup key = some (ref', destination))
    (sum : Student.addUnits? student.units destination.units = some total)
    (seated : source.seats.holds student.id = true)
    (vacant : destination.seats.nextPlace = some place) :
    let student' := (student.hold key (Student.subUnits total source.units)).spendAction
    r.Transferred student.id key student ref source ref' destination
      (source.seats.vacate student.id) (destination.seats.give student.id place) student'
      (r.moved ref source ref' destination place student') := by
  have apart := hr.sound.apart other found found'
  have hget := Catalog.get?_of_lookup found
  have hget' := Catalog.get?_of_lookup found'
  have hcourse := Catalog.course_of_lookup found
  have hcourse' := Catalog.course_of_lookup found'
  have orderly := hr.agrees.orderly (seats_ledger found)
  have orderly' := hr.agrees.orderly (seats_ledger found')
  have hnew : destination.seats.holds student.id = false :=
    hr.not_holds known found' (by rw [holds]; exact fun h => other (Option.some.inj h))
  intro student'
  constructor
  · exact orderly.leaves_vacate seated
  · exact Seats.joins_give hnew vacant
  · exact (orderly'.give hnew place).placesOf_eq_one (Seats.holds_give.2 (.inl rfl))
  · exact apart
  · exact get?_moved apart hget hget' place student'
  · have hplaces := placesIn_moved apart hget hget' place student'
      (hcourse.trans hcourse'.symm) orderly seated hnew
    rwa [hcourse] at hplaces
  · show (Student.subUnits total source.units).toNat = _
    rw [Student.toNat_subUnits, (Student.addUnits?_eq_some_iff.1 sum).2]
  · exact Student.toNat_actions_spendAction (s := student.hold key _) able
  · rfl
  · exact fun id => OrderedMap.get?_insert _ _ id _
  · rfl

/-- **A change of group that is carried out is a transfer**, and would be the same one if the groups
had other numbers. -/
theorem Effect.transferred (h : r.Effect now (.switchGroup id key) [record] r')
    (hr : r.Consistent) :
    ∃ student group ref source ref' destination left joined student',
      r.CanSwitch id key student group ref source ref' destination ∧
      r.Transferred id key student ref source ref' destination left joined student' r' ∧
      record = ⟨source.department, .switchGroup id key⟩ ∧
      ∀ g g' : GroupId, g ≠ g' → ∃ event,
        (source.inGroup g).transfer (destination.inGroup g') id = .ok ⟨[⟨
          ⟨source.department, .switchGroup id ⟨key.course, g'⟩⟩,
          ((source.withSeats left).inGroup g, (destination.withSeats joined).inGroup g'),
          event⟩], true⟩ := by
  cases h with
  | @switchGroup _ _ student group ref source ref' destination total place known opened able holds
      other found found' admitted sum within clear seated vacant =>
    obtain rfl := hr.sound.filed known
    have hkey := hr.sound.catalog.key_of_lookup found
    have hkey' := hr.sound.catalog.key_of_lookup found'
    have hmoved := transferred_moved hr known able holds other found found' sum seated vacant
    refine ⟨student, group, ref, source, ref', destination, _, _, _,
      ⟨known, holds, other, found, found', admitted, ?_⟩, hmoved, ?_, ?_⟩
    · intro held hheld hne
      obtain ⟨at', s, hfound, -⟩ := hr.held_found known (mem_held.1 hheld)
      have hkept : held ∈ student.held.filter fun k => k.course != key.course :=
        List.mem_filter.2 ⟨hheld, bne_iff_ne.2 hne⟩
      have hclear := clear_of_checkClashes clear s (mem_sectionsAt.2 ⟨held, hkept, at', hfound⟩)
      exact ⟨at', s, hfound, hclear⟩
    · rw [hkey, hkey']
      rfl
    · intro g g' hne
      have hsame : source.key.course = destination.key.course := by rw [hkey, hkey']
      have htransfer := Section.transfer_inGroup hsame hne seated vacant
      rwa [hkey] at htransfer

end Registry

/-! ## Calls -/

namespace Office

open Registry

variable {o : Office} {request : Request}

/-- What is done is all that was decided. -/
lemma handle_of_done {cancelled : Bool} {answer : Answer}
    (h : (o.handle cancelled request).1.outcome = .done answer) :
    ∃ plan, o.decide request = .ok plan ∧
      (o.handle cancelled request).2.registry = Change.after plan.changes o.registry ∧
      (o.handle cancelled request).2.clock = o.clock ∧
      (o.handle cancelled request).1.taken = plan.changes.map (·.record) ∧
      (o.handle cancelled request).1.declined = [] := by
  cases hdecide : o.decide request with
  | error halt =>
    obtain ⟨events, he⟩ := handle_eq o cancelled request
    rw [he, hdecide] at h
    cases halt <;> cases h
  | ok plan =>
    obtain ⟨hoffice, htaken, hdeclined, houtcome⟩ := handle_of_ok cancelled hdecide
    obtain ⟨made, left, hsplit, hstate, hmade, hleft, hstop, -⟩ :=
      carryOut_spec cancelled plan.changes o.registry o.outbox
    obtain rfl := hstop.1 (Report.outcomeOf_eq_done (houtcome.symm.trans h))
    obtain rfl : plan.changes = made := hsplit.trans (List.append_nil made)
    rw [hoffice, htaken, hdeclined]
    exact ⟨plan, rfl, hstate, rfl, hmade, hleft⟩

lemma decide_enroll_eq_ok {id : StudentId} {key : SectionKey} {plan : Plan Registry Answer}
    (h : o.decide (.enroll id key) = .ok plan) :
    ∃ c, plan.changes = [c] ∧
      o.registry.Effect o.clock (.enroll id key) [c.record] c.result := by
  simp only [Office.decide, bind_eq_ok, pure_eq_ok] at h
  obtain ⟨inner, hinner, rfl⟩ := h
  exact enroll_eq_ok hinner

lemma decide_drop_eq_ok {id : StudentId} {course : CourseId} {plan : Plan Registry Answer}
    (h : o.decide (.drop id course) = .ok plan) :
    ∃ c, plan.changes = [c] ∧
      o.registry.Effect o.clock (.drop id course) [c.record] c.result := by
  simp only [Office.decide, bind_eq_ok, pure_eq_ok] at h
  obtain ⟨inner, hinner, rfl⟩ := h
  exact drop_eq_ok hinner

lemma decide_switchGroup_eq_ok {id : StudentId} {key : SectionKey} {plan : Plan Registry Answer}
    (h : o.decide (.switchGroup id key) = .ok plan) :
    ∃ c, plan.changes = [c] ∧
      o.registry.Effect o.clock (.switchGroup id key) [c.record] c.result := by
  simp only [Office.decide, bind_eq_ok, pure_eq_ok] at h
  obtain ⟨inner, hinner, rfl⟩ := h
  exact switchGroup_eq_ok hinner

/-- **Every change of group that goes through moves one place.**  The student leaves the one group
and joins the other, and nothing else changes.  The total of units changes by exactly the difference
unless a sum was too large for a word before.  If the two groups had other numbers, in whatever
order, both would have the same seats afterwards. -/
theorem run_switchGroup_moved {snapshot : Snapshot} {r : Registry} (built : snapshot.build = .ok r)
    (clock : Instant) (outbox : Outbox) (turns : List Turn) (cancelled : Bool) (id : StudentId)
    (key : SectionKey) :
    let o := (run ⟨r, clock, outbox⟩ turns).2
    let report := (o.handle cancelled (.switchGroup id key)).1
    let o' := (o.handle cancelled (.switchGroup id key)).2
    report.outcome = .done .done →
    ∃ student group ref source ref' destination left joined student',
      o.registry.CanSwitch id key student group ref source ref' destination ∧
      o.registry.Transferred id key student ref source ref' destination left joined student'
        o'.registry ∧
      report.taken = [⟨source.department, .switchGroup id key⟩] ∧ report.declined = [] ∧
      o'.clock = o.clock ∧
      ((∀ earlier, earlier <+: turns → earlier ≠ turns →
          (run ⟨r, clock, outbox⟩ earlier).2.registry.CountableAt id) →
        (student'.units.toNat : Int) =
          student.units.toNat + destination.units.toNat - source.units.toNat) ∧
      ∀ g g' : GroupId, g ≠ g' → ∃ event,
        (source.inGroup g).transfer (destination.inGroup g') id = .ok ⟨[⟨
          ⟨source.department, .switchGroup id ⟨key.course, g'⟩⟩,
          ((source.withSeats left).inGroup g, (destination.withSeats joined).inGroup g'),
          event⟩], true⟩ := by
  intro o report o' hdone
  have hstart : r.Consistent := Snapshot.build_consistent built
  have hr : o.registry.Consistent := hstart.run (o := ⟨r, clock, outbox⟩) turns
  obtain ⟨plan, hdecide, hregistry, hclock, htaken, hdeclined⟩ := handle_of_done hdone
  obtain ⟨c, hchanges, heffect⟩ := decide_switchGroup_eq_ok hdecide
  rw [hchanges] at hregistry htaken
  obtain ⟨student, group, ref, source, ref', destination, left, joined, student', hcan, hmoved,
    hrecord, hgroups⟩ := heffect.transferred hr
  refine ⟨student, group, ref, source, ref', destination, left, joined, student', hcan, ?_, ?_,
    hdeclined, hclock, ?_, hgroups⟩
  · rwa [show o'.registry = c.result from hregistry]
  · rw [← hrecord]
    exact htaken
  · -- the student's total still has the units of the source in it
    intro countable
    have hcapped : student.units.toNat = min 65535 (o.registry.unitsOf student) :=
      run_capped (o := ⟨r, clock, outbox⟩) hstart (capped_of_build built) turns countable student
        hcan.known
    have hleft := o.registry.unitsOf_letGo hcan.holds 0
    rw [unitsAt_eq hcan.found] at hleft
    have hunits := hmoved.units
    have hsource := source.units.toNat_lt
    omega

/-- Student 1 changes to group 2, and student 2 gets the seat in group 1. -/
theorem run_switchGroup_moved_small :
    let o : Office := ⟨.small, .epoch, .script .accepting⟩
    let key : SectionKey := ⟨⟨100⟩, ⟨2⟩⟩
    (o.handle false (.switchGroup ⟨1⟩ key)).1.outcome = .done .done ∧
    ∃ student ref source ref' destination left joined student',
      o.registry.Transferred ⟨1⟩ key student ref source ref' destination left joined student'
        (o.handle false (.switchGroup ⟨1⟩ key)).2.registry ∧
      ⟨2⟩ ∈ source.seats.waitlist ∧ ⟨2⟩ ∈ left.registered ∧
      (student'.units.toNat : Int) =
        student.units.toNat + destination.units.toNat - source.units.toNat := by
  dsimp only
  have hdone : ((⟨.small, .epoch, .script .accepting⟩ : Office).handle false
      (.switchGroup ⟨1⟩ ⟨⟨100⟩, ⟨2⟩⟩)).1.outcome = .done .done := by decide +kernel
  have moved := run_switchGroup_moved Snapshot.small_build .epoch (.script .accepting) [] false ⟨1⟩
    ⟨⟨100⟩, ⟨2⟩⟩
  simp only [run] at moved
  obtain ⟨student, group, ref, source, ref', destination, left, joined, student', hcan, hmoved, -,
    -, -, hunits, -⟩ := moved hdone
  obtain ⟨student₁, known, holds⟩ : ∃ student, Registry.small.students.get? ⟨1⟩ = some student ∧
      student.courses.get? ⟨100⟩ = some ⟨1⟩ := ⟨_, rfl, rfl⟩
  obtain ⟨at', s, found, hseated, hwaits⟩ : ∃ at' s,
      Registry.small.catalog.lookup ⟨⟨100⟩, ⟨1⟩⟩ = some (at', s) ∧ ⟨1⟩ ∈ s.seats.registered ∧
      s.seats.waitlist = [⟨2⟩] := ⟨_, _, rfl, by decide +kernel, by decide +kernel⟩
  obtain rfl := Option.some.inj (known.symm.trans hcan.known)
  obtain rfl := Option.some.inj (holds.symm.trans hcan.holds)
  obtain ⟨rfl, rfl⟩ := Prod.mk.inj (Option.some.inj (found.symm.trans hcan.found))
  refine ⟨hdone, student₁, at', s, ref', destination, left, joined, student', hmoved, ?_, ?_, ?_⟩
  · rw [hwaits]
    exact List.mem_singleton_self _
  · exact (hmoved.leaves.registered ⟨2⟩).2 (.inr ⟨hseated, by rw [hwaits]; rfl⟩)
  · refine hunits fun earlier hearlier hne => ?_
    exact absurd (List.prefix_nil.1 hearlier) hne

end Office

/-! ## A total that is too small -/

namespace Office

open Registry Snapshot

variable {o : Office} {id : StudentId} {student : Student} {course : CourseId} {group : GroupId}
  {k : Nat}

/-- If the journal takes the record, staff drop a held course for a student. -/
lemma handle_staffDrop (hr : o.registry.Consistent)
    (known : o.registry.students.get? id = some student)
    (holds : student.courses.get? course = some group) (cancelled : Bool)
    (accepts : ∀ record, (o.outbox.offer cancelled record).1 = .taken) :
    ∃ ref held record, o.registry.catalog.lookup ⟨course, group⟩ = some (ref, held) ∧
      (o.handle cancelled (.staffDrop id course)).2 =
        ⟨(o.registry.putSection ref (held.withSeats (held.seats.vacate id))).putStudent
            (student.letGo course held.units), o.clock, (o.outbox.offer cancelled record).2⟩ := by
  obtain rfl := hr.sound.filed known
  obtain ⟨ref, held, found, seated⟩ := hr.held_found known holds
  have hdecide : o.decide (.staffDrop student.id course) =
      .ok ⟨[⟨held.record (.drop student.id held.key.course),
        (o.registry.putSection ref (held.withSeats (held.seats.vacate student.id))).putStudent
          (student.letGo course held.units), .removed student.id held.key⟩], .done⟩ := by
    simp only [Office.decide, Registry.staffDrop, student_eq_ok.2 known, ok_bind,
      releaseCourse_eq _ holds found seated]
    rfl
  exact ⟨ref, held, _, found, (office_of_accepted cancelled accepts hdecide).2.2⟩

/-- Of more courses than a word can count the units of, student 1 has those up to number `k` left,
and the total misses one of them. -/
structure Unloaded (k : Nat) (o : Office) (student : Student) : Prop where
  consistent : o.registry.Consistent
  clock : o.clock = .epoch
  outbox : o.outbox = .script .accepting
  known : o.registry.students.get? ⟨1⟩ = some student
  opened : student.windowOpen .epoch = true
  able : student.actions ≠ 0
  total : student.units.toNat = 255 * k
  held : student.held.Perm ((List.range (k + 1)).map heavyKey)
  heavy : ∀ i ≤ k, o.registry.unitsAt (heavyKey i) = 255
  other : ∃ ref, o.registry.catalog.lookup ⟨⟨0⟩, ⟨2⟩⟩ = some (ref, (light ⟨⟨0⟩, ⟨2⟩⟩ 5).built)

lemma unloaded_laden : Unloaded 257
    ⟨(laden 258).registry, .epoch, .script .accepting⟩ (ladenStudent 258) where
  consistent := build_consistent (build_laden (by decide))
  clock := rfl
  outbox := rfl
  known := known_ladenStudent 258
  opened := windowOpen_ladenStudent 258
  able := by decide
  total := toNat_units_ladenStudent (by decide)
  held := held_ladenStudent_perm (by decide)
  heavy i hi := by
    obtain ⟨ref, found⟩ := lookup_heavy (n := 258) (by decide) (Nat.lt_succ_of_le hi)
    exact unitsAt_eq found
  other := lookup_other (by decide)

/-- The turn in which staff drop the course number `k` for student 1. -/
def unloading (k : Nat) : Turn :=
  .call (.request false (.staffDrop ⟨1⟩ (heavyKey k).course))

lemma Unloaded.turn (h : Unloaded (k + 1) o student) :
    ∃ student', Unloaded k (o.turn (unloading (k + 1))).2 student' := by
  have hheld : heavyKey (k + 1) ∈ student.held := by
    rw [h.held.mem_iff]
    exact List.mem_map_of_mem (List.mem_range.2 (Nat.lt_succ_self _))
  have holds : student.courses.get? (heavyKey (k + 1)).course = some ⟨1⟩ := mem_held.1 hheld
  obtain ⟨ref, held, record, found, hoffice⟩ := handle_staffDrop h.consistent h.known holds false
    fun _ => by rw [h.outbox]; rfl
  have hunits : held.units.toNat = 255 := (unitsAt_eq found).symm.trans (h.heavy _ (Nat.le_refl _))
  have hweights := (o.handle_effect false (.staffDrop ⟨1⟩ (heavyKey (k + 1)).course)).unitsAt_eq
    h.consistent
  have hid : student.id = ⟨1⟩ := h.consistent.sound.filed h.known
  have hturn : (o.turn (unloading (k + 1))).2 = _ := hoffice
  have hrest : ((List.range (k + 1)).map heavyKey).Perm
      (student.letGo (heavyKey (k + 1)).course held.units).held := by
    have hall : ((List.range (k + 1 + 1)).map heavyKey).Perm
        (heavyKey (k + 1) :: (List.range (k + 1)).map heavyKey) := by
      rw [List.range_succ, List.map_append]
      exact List.perm_append_singleton ..
    exact (hall.symm.trans (h.held.symm.trans (Student.held_letGo_perm holds held.units))).cons_inv
  refine ⟨student.letGo (heavyKey (k + 1)).course held.units,
    turn_consistent h.consistent (unloading (k + 1)), ?_, ?_, ?_, h.opened, h.able, ?_, hrest.symm,
    ?_, ?_⟩
  · rw [hturn]
    exact h.clock
  · rw [hturn, h.outbox]
    rfl
  · rw [hturn, ← hid]
    exact OrderedMap.get?_insert_self ..
  · show (Student.subUnits student.units held.units).toNat = _
    rw [Student.toNat_subUnits, h.total, hunits]
    omega
  · intro i hi
    exact (congrFun hweights (heavyKey i)).trans (h.heavy i (Nat.le_succ_of_le hi))
  · obtain ⟨ref', found'⟩ := h.other
    have hne : (⟨⟨0⟩, ⟨2⟩⟩ : SectionKey) ≠ heavyKey (k + 1) := fun heq =>
      absurd (congrArg (fun key => key.group.number) heq) (show (2 : UInt8) ≠ 1 by decide)
    rw [hturn]
    exact ⟨ref', (lookup_putSeats_of_ne found _ hne).trans found'⟩

/-- The turns in which staff drop the courses from number `k` down to number 1. -/
def unloadings : Nat → List Turn
  | 0 => []
  | k + 1 => unloading (k + 1) :: unloadings k

lemma Unloaded.run (h : Unloaded k o student) :
    ∃ student', Unloaded 0 (o.run (unloadings k)).2 student' := by
  induction k generalizing o student with
  | zero => exact ⟨student, h⟩
  | succ k ih =>
    obtain ⟨student', h'⟩ := h.turn
    exact ih h'

/-- With the last course left, which the total does not count, a change to a group with fewer units
leaves the total at zero. -/
lemma Unloaded.switchGroup (h : Unloaded 0 o student) :
    (o.handle false (.switchGroup ⟨1⟩ ⟨⟨0⟩, ⟨2⟩⟩)).1.outcome = .done .done ∧
    ∃ ref source ref' destination student',
      student.courses.get? ⟨0⟩ = some ⟨1⟩ ∧
      o.registry.catalog.lookup ⟨⟨0⟩, ⟨1⟩⟩ = some (ref, source) ∧
      o.registry.catalog.lookup ⟨⟨0⟩, ⟨2⟩⟩ = some (ref', destination) ∧
      (o.handle false (.switchGroup ⟨1⟩ ⟨⟨0⟩, ⟨2⟩⟩)).2.registry.students.get? ⟨1⟩ = some student' ∧
      source.units.toNat = 255 ∧ destination.units.toNat = 5 ∧ student'.units.toNat = 0 := by
  have hheld : student.held = [⟨⟨0⟩, ⟨1⟩⟩] := List.perm_singleton.1 h.held
  have holds : student.courses.get? ⟨0⟩ = some ⟨1⟩ :=
    mem_held.1 (by rw [hheld]; exact List.mem_singleton_self _)
  obtain ⟨ref, source, found, seated⟩ := h.consistent.held_found h.known holds
  obtain ⟨ref', found'⟩ := h.other
  have hsource : source.units.toNat = 255 :=
    (unitsAt_eq found).symm.trans (h.heavy 0 (Nat.le_refl 0))
  have hfive : (5 : UInt8).toNat = 5 := rfl
  obtain ⟨total, sum⟩ : ∃ total, Student.addUnits? student.units 5 = some total :=
    ⟨_, if_pos (by rw [h.total]; decide)⟩
  have htotal : total.toNat = student.units.toNat + 5 := (Student.addUnits?_eq_some_iff.1 sum).2
  have may : o.registry.MayMove o.clock ⟨1⟩ ⟨⟨0⟩, ⟨2⟩⟩ student ⟨1⟩ total ref source ref'
      (light ⟨⟨0⟩, ⟨2⟩⟩ 5).built := {
    known := h.known
    opened := by rw [h.clock]; exact h.opened
    able := h.able
    holds := holds
    other := by decide
    found := found
    found' := found'
    admitted := rfl
    sum := sum
    within := by rw [UInt8.le_iff_toNat_le, hsource]; decide
    clear := by rw [hheld]; rfl
    seated := seated }
  have hplace : (light ⟨⟨0⟩, ⟨2⟩⟩ 5).built.seats.nextPlace = some .registered := rfl
  obtain ⟨hdone, hregistry⟩ := may.handle_room h.consistent.sound false
    (fun _ => by rw [h.outbox]; rfl) hplace
  have hid : student.id = ⟨1⟩ := h.consistent.sound.filed h.known
  refine ⟨hdone, ref, source, ref', _,
    (student.hold ⟨⟨0⟩, ⟨2⟩⟩ (Student.subUnits total source.units)).spendAction, holds, found,
    found', ?_, hsource, hfive, ?_⟩
  · rw [hregistry, ← hid]
    exact OrderedMap.get?_insert_self ..
  · show (Student.subUnits total source.units).toNat = 0
    rw [Student.toNat_subUnits, htotal, h.total, hsource]

/-- A total of zero stays zero in a change from 255 units to 5. -/
theorem change_of_group_keeps_zero :
    let o := (run ⟨(laden 258).registry, .epoch, .script .accepting⟩ (unloadings 257)).2
    let report := (o.handle false (.switchGroup ⟨1⟩ ⟨⟨0⟩, ⟨2⟩⟩)).1
    let o' := (o.handle false (.switchGroup ⟨1⟩ ⟨⟨0⟩, ⟨2⟩⟩)).2
    (laden 258).build = .ok (laden 258).registry ∧ report.outcome = .done .done ∧
    ∃ student ref source ref' destination student',
      o.registry.students.get? ⟨1⟩ = some student ∧
      student.courses.get? ⟨0⟩ = some ⟨1⟩ ∧
      o.registry.catalog.lookup ⟨⟨0⟩, ⟨1⟩⟩ = some (ref, source) ∧
      o.registry.catalog.lookup ⟨⟨0⟩, ⟨2⟩⟩ = some (ref', destination) ∧
      o'.registry.students.get? ⟨1⟩ = some student' ∧
      (student'.units.toNat : Int) ≠
        student.units.toNat + destination.units.toNat - source.units.toNat := by
  intro o
  dsimp only
  obtain ⟨student, h⟩ : ∃ student, Unloaded 0 o student := unloaded_laden.run
  obtain ⟨hdone, ref, source, ref', destination, student', holds, found, found', known', hsource,
    hdestination, hzero⟩ := h.switchGroup
  refine ⟨build_laden (by decide), hdone, student, ref, source, ref', destination, student',
    h.known, holds, found, found', known', ?_⟩
  rw [hzero, h.total, hsource, hdestination]
  decide

end Office

end CourseRegistration
