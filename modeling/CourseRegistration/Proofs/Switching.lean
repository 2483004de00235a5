import CourseRegistration.Proofs.Ledger

/-!
# Changes of group that the rules allow

`Registry.Planned` reads off a decision what has been checked.  This module goes the other way for a
change of group: if every rule allows it (`Registry.MayMove`), the decision depends on nothing but
whether the other group has a place, and if the journal takes the record, so does the outcome
(`MayMove.handle_full`, `MayMove.handle_room`).
-/

namespace CourseRegistration

open Journal Check

/-- Units that are added and taken off again leave the total as it was. -/
lemma Student.subUnits_of_addUnits? {total sum : UInt16} {units : UInt8}
    (h : addUnits? total units = some sum) : subUnits sum units = total := by
  unfold addUnits? at h
  split at h
  · rename_i hfits
    cases h
    have hunits : units.toUInt16.toNat = units.toNat := UInt8.toNat_toUInt16 units
    have hsum : (total + units.toUInt16).toNat = total.toNat + units.toNat := by
      rw [UInt16.toNat_add, hunits]
      exact Nat.mod_eq_of_lt hfits
    have hle : units.toUInt16 ≤ total + units.toUInt16 := by
      rw [UInt16.le_iff_toNat_le, hsum, hunits]
      exact Nat.le_add_left _ _
    unfold subUnits
    rw [if_pos hle]
    exact UInt16.add_sub_cancel _ _
  · cases h

namespace Registry

/-- The registry in which a student has left one section for the given place in another. -/
def moved (r : Registry) (ref : Catalog.Ref) (source : Section) (ref' : Catalog.Ref)
    (destination : Section) (place : Place) (student : Student) : Registry :=
  ((r.putSection ref (source.withSeats (source.seats.vacate student.id))).putSection ref'
    (destination.withSeats (destination.seats.give student.id place))).putStudent student

/-- Every rule lets the student change groups; only a place may be wanting. -/
structure MayMove (now : Instant) (r : Registry) (id : StudentId) (key : SectionKey)
    (student : Student) (group : GroupId) (total : UInt16) (ref : Catalog.Ref) (source : Section)
    (ref' : Catalog.Ref) (destination : Section) : Prop where
  known : r.students.get? id = some student
  opened : student.windowOpen now = true
  able : student.actions ≠ 0
  holds : student.courses.get? key.course = some group
  other : group ≠ key.group
  found : r.catalog.lookup ⟨key.course, group⟩ = some (ref, source)
  found' : r.catalog.lookup key = some (ref', destination)
  admitted : destination.lock.admits student.gender = true
  sum : Student.addUnits? student.units destination.units = some total
  within : destination.units ≤ source.units
  clear : r.checkClashes id destination
    (student.held.filter fun k => k.course != key.course) = .ok ()
  seated : source.seats.holds id = true

namespace MayMove

variable {now : Instant} {r : Registry} {id : StudentId} {key : SectionKey} {student : Student}
  {group : GroupId} {total : UInt16} {ref ref' : Catalog.Ref} {source destination : Section}
  {place : Place}

/-- All that is left of the decision is the transfer. -/
lemma switchGroup_eq (h : r.MayMove now id key student group total ref source ref' destination) :
    r.switchGroup now id key = (do
      let plan ← source.transfer destination id
      require plan.answer .noPlaceLeft
      return (r.atSections ref ref' plan).settle
        (student.hold key (Student.subUnits total source.units)).spendAction) := by
  have hable : (student.actions != 0) = true := bne_iff_ne.2 h.able
  have hother : (group != key.group) = true := bne_iff_ne.2 h.other
  have hsum : totalWith student.units destination.units = .ok total := totalWith_eq_ok.2 h.sum
  have hwithin : (decide (destination.units ≤ source.units) ||
      decide (Student.subUnits total source.units ≤ student.maxUnits)) = true := by
    rw [decide_eq_true h.within, Bool.true_or]
  simp only [Registry.switchGroup, student_eq_ok.2 h.known, offered_eq_ok.2 h.found',
    heldSection_eq_ok.2 h.found, h.opened, hable, expect_eq_ok.2 h.holds, hother, h.admitted, hsum,
    hwithin, h.clear, require_true, ok_bind]

variable (h : r.MayMove now id key student group total ref source ref' destination) (hr : r.Sound)
include h hr

/-- All that is left of the transfer is the next place of the other group. -/
lemma transfer_eq : source.transfer destination id =
    match destination.seats.nextPlace with
    | none => .ok ⟨[], false⟩
    | some place =>
      .ok ⟨[⟨source.record (.switchGroup id ⟨source.key.course, destination.key.group⟩),
        (source.withSeats (source.seats.vacate id),
          destination.withSeats (destination.seats.give id place)),
        .moved id source.key.course source.key.group destination.key.group place⟩], true⟩ := by
  have hsource := hr.catalog.key_of_lookup h.found
  have hdestination := hr.catalog.key_of_lookup h.found'
  have hgroups : (source.key.course = destination.key.course &&
      source.key.group != destination.key.group) = true := by
    rw [hsource, hdestination, decide_eq_true rfl, Bool.true_and]
    exact bne_iff_ne.2 h.other
  simp only [Section.transfer, hgroups, h.seated, require_true, ok_bind]
  cases destination.seats.nextPlace <;> rfl

/-- Without a place the move is refused. -/
lemma switchGroup_full (full : destination.seats.nextPlace = none) :
    r.switchGroup now id key = .error (.failed .noPlaceLeft []) := by
  rw [h.switchGroup_eq, h.transfer_eq hr, full]
  rfl

/-- With a place the move is one change. -/
lemma switchGroup_room (room : destination.seats.nextPlace = some place) :
    ∃ record event, r.switchGroup now id key = .ok ⟨[⟨record, r.moved ref source ref' destination
      place (student.hold key (Student.subUnits total source.units)).spendAction, event⟩], ()⟩ := by
  obtain rfl := hr.filed h.known
  rw [h.switchGroup_eq, h.transfer_eq hr, room]
  exact ⟨_, _, rfl⟩

end MayMove

end Registry

/-! ## Outcomes -/

namespace Office

variable {o : Office} {request : Request}

lemma handle_of_failed (cancelled : Bool) {cause : Failure} {notes : List Event}
    (h : o.decide request = .error (.failed cause notes)) :
    (o.handle cancelled request).1.outcome = .failed cause ∧
      (o.handle cancelled request).2 = o := by
  obtain ⟨events, he⟩ := handle_eq o cancelled request
  rw [he, h]
  exact ⟨rfl, rfl⟩

/-- If the journal takes its record, a single change goes through. -/
lemma handle_of_accepted (cancelled : Bool) {c : Change Registry} {answer : Answer}
    (accepts : ∀ record, (o.outbox.offer cancelled record).1 = .taken)
    (h : o.decide request = .ok ⟨[c], answer⟩) :
    (o.handle cancelled request).1.outcome = .done answer ∧
      (o.handle cancelled request).2.registry = c.result := by
  obtain ⟨hoffice, -, -, houtcome⟩ := handle_of_ok cancelled h
  rw [houtcome, hoffice, carryOut_singleton _ (accepts c.record)]
  exact ⟨rfl, rfl⟩

end Office

namespace Registry.MayMove

variable {o : Office} {id : StudentId} {key : SectionKey} {student : Student}
  {group : GroupId} {total : UInt16} {ref ref' : Catalog.Ref} {source destination : Section}
  {place : Place}
  (h : o.registry.MayMove o.clock id key student group total ref source ref' destination)
  (hr : o.registry.Sound)
include h hr

lemma handle_full (cancelled : Bool) (full : destination.seats.nextPlace = none) :
    (o.handle cancelled (.switchGroup id key)).1.outcome = .failed .noPlaceLeft ∧
      (o.handle cancelled (.switchGroup id key)).2 = o := by
  have hdecide : o.decide (.switchGroup id key) = .error (.failed .noPlaceLeft []) := by
    rw [Office.decide, h.switchGroup_full hr full]
    rfl
  exact Office.handle_of_failed cancelled hdecide

lemma handle_room (cancelled : Bool)
    (accepts : ∀ record, (o.outbox.offer cancelled record).1 = .taken)
    (room : destination.seats.nextPlace = some place) :
    (o.handle cancelled (.switchGroup id key)).1.outcome = .done .done ∧
      (o.handle cancelled (.switchGroup id key)).2.registry =
        o.registry.moved ref source ref' destination place
          (student.hold key (Student.subUnits total source.units)).spendAction := by
  obtain ⟨record, event, hswitch⟩ := h.switchGroup_room hr room
  have hdecide : o.decide (.switchGroup id key) = .ok ⟨[⟨record, o.registry.moved ref source ref'
      destination place (student.hold key (Student.subUnits total source.units)).spendAction,
      event⟩], .done⟩ := by
    rw [Office.decide, hswitch]
    rfl
  exact Office.handle_of_accepted cancelled accepts hdecide

end Registry.MayMove

end CourseRegistration
