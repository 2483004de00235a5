import CourseRegistration.Proofs.GroupChange

/-!
# Dropping undoes enrolling

A student who gives up a course right after getting a place in it leaves everything as it was.
Three things have to fit together for that.  The place that is taken back is the one that was given,
since the student had no other (`Seats.vacate_give`).  Nobody moves up meanwhile: the student got a
registered seat only where nobody waits, provided that no seat stands free in front of a waitlist.
And the units that are taken off the total are those that were added to it, since an enrollment
never goes beyond what the total can count (`Student.letGo_hold`).

The two ways of dropping a course differ only in the action that the student pays.
-/

namespace CourseRegistration

open Journal Check

/-- A place that is given and taken back leaves the seats as they were, if the student had none and
no seat was free in front of a waitlist. -/
lemma Seats.vacate_give {s : Seats} {x : StudentId} {place : Place} (hnew : s.holds x = false)
    (vacant : s.nextPlace = some place)
    (front : ¬ (s.registered.size < s.capacity.toNat ∧ s.waitlist ≠ [])) :
    (s.give x place).vacate x = s := by
  have hnone := not_holds_iff.1 hnew
  rcases nextPlace_eq_some_iff.1 vacant with ⟨rfl, hroom⟩ | ⟨rfl, -, -⟩
  · -- nobody waits for the registered seat
    have hwaits : s.waitlist = [] := not_not.1 fun hwaits => front ⟨hroom, hwaits⟩
    have hgiven : x ∈ (s.give x .registered).registered := OrderedSet.mem_insert.2 (.inl rfl)
    rw [vacate, if_pos hgiven]
    simp only [give, hwaits, OrderedSet.erase_insert hnone.1]
    rw [← hwaits]
  · rw [vacate, if_neg (show x ∉ (s.give x .waitlisted).registered from hnone.1)]
    simp only [give, List.erase_append_right _ hnone.2, List.erase_cons_head, List.append_nil]

/-- A course that is taken and given up leaves the student as before. -/
lemma Student.letGo_hold {s : Student} {key : SectionKey} {units : UInt8} {total : UInt16}
    (sum : addUnits? s.units units = some total) (fresh : s.courses.get? key.course = none) :
    (s.hold key total).letGo key.course units = s := by
  simp only [letGo, hold, subUnits_of_addUnits? sum, OrderedMap.erase_insert fresh]

namespace Registry

/-- The registry in which a student has taken the given place in a section. -/
def joined (r : Registry) (ref : Catalog.Ref) (s : Section) (place : Place) (student : Student) :
    Registry :=
  (r.putSection ref (s.withSeats (s.seats.give student.id place))).putStudent student

variable {r : Registry} {key : SectionKey} {student student' : Student} {ref : Catalog.Ref}
  {s : Section} {units : UInt16} {place : Place}

lemma putStudent_of_get? (known : r.students.get? student.id = some student) :
    r.putStudent student = r := by
  rw [putStudent, OrderedMap.insert_of_get? known]

lemma student_joined : (r.joined ref s place (student.hold key units)).student student.id =
    .ok (student.hold key units) :=
  student_eq_ok.2 (OrderedMap.get?_insert_self ..)

/-- Where the section is put back, nothing is left of a place that was taken but the student. -/
lemma putSection_joined (found : r.catalog.get? ref = some s) (hid : student'.id = student.id) :
    ((r.joined ref s place student).putSection ref s).putStudent student' =
      r.putStudent student' := by
  have hcatalog : ((r.catalog.set ref (s.withSeats (s.seats.give student.id place))).set ref s) =
      r.catalog := by
    rw [Catalog.set_set, Catalog.set_of_get? found]
  simp only [joined, putSection, putStudent, hid, hcatalog, OrderedMap.insert_insert]

section

variable (hr : r.Consistent) (known : r.students.get? student.id = some student)
  (found : r.catalog.lookup key = some (ref, s))
  (sum : Student.addUnits? student.units s.units = some units)
  (fresh : student.courses.get? key.course = none) (vacant : s.seats.nextPlace = some place)
  (front : ¬ (s.seats.registered.size < s.seats.capacity.toNat ∧ s.seats.waitlist ≠ []))
include hr known found sum fresh vacant front

/-- **A course that has just been taken can be let go, and then everything is as before**, apart
from what else happens to the student. -/
theorem releaseCourse_joined (after : Student → Student)
    (hafter : (after student).id = student.id) :
    ∃ record event,
      (r.joined ref s place (student.hold key units)).releaseCourse (student.hold key units)
        key.course after = .ok ⟨[⟨record, r.putStudent (after student), event⟩], ()⟩ := by
  have hnew : s.seats.holds student.id = false :=
    hr.not_holds known found (by rw [fresh]; nofun)
  have holds : (student.hold key units).courses.get? key.course = some key.group :=
    OrderedMap.get?_insert_self ..
  have found' : (r.joined ref s place (student.hold key units)).catalog.lookup key =
      some (ref, s.withSeats (s.seats.give student.id place)) := lookup_putSeats_self found _
  have seated : (s.seats.give student.id place).holds student.id = true :=
    Seats.holds_give.2 (.inl rfl)
  have hsection : (s.withSeats (s.seats.give student.id place)).withSeats
      ((s.seats.give student.id place).vacate student.id) = s := by
    rw [Seats.vacate_give hnew vacant front]
    rfl
  have hstudent := Student.letGo_hold sum fresh
  have hback : ((r.joined ref s place (student.hold key units)).putSection ref
      ((s.withSeats (s.seats.give student.id place)).withSeats
        ((s.seats.give student.id place).vacate student.id))).putStudent
          (after ((student.hold key units).letGo key.course s.units)) =
      r.putStudent (after student) := by
    rw [hsection, hstudent]
    exact putSection_joined (Catalog.get?_of_lookup found) hafter
  exact ⟨_, _, hback ▸ releaseCourse_eq after holds found' seated⟩

lemma staffDrop_joined : ∃ record event,
    (r.joined ref s place (student.hold key units)).staffDrop student.id key.course =
      .ok ⟨[⟨record, r, event⟩], ()⟩ := by
  obtain ⟨record, event, hrelease⟩ :=
    releaseCourse_joined hr known found sum fresh vacant front (fun s => s) rfl
  rw [putStudent_of_get? known] at hrelease
  refine ⟨record, event, ?_⟩
  rw [staffDrop, student_joined, ok_bind]
  exact hrelease

lemma drop_joined {now : Instant} (opened : student.windowOpen now = true)
    (able : student.actions ≠ 0) : ∃ record event,
    (r.joined ref s place (student.hold key units)).drop now student.id key.course =
      .ok ⟨[⟨record, r.putStudent student.spendAction, event⟩], ()⟩ := by
  obtain ⟨record, event, hrelease⟩ :=
    releaseCourse_joined hr known found sum fresh vacant front Student.spendAction rfl
  have opened' : (student.hold key units).windowOpen now = true := opened
  have able' : ((student.hold key units).actions != 0) = true := bne_iff_ne.2 able
  refine ⟨record, event, ?_⟩
  rw [drop, student_joined, ok_bind, opened', require_true, ok_bind, able', require_true, ok_bind]
  exact hrelease

end

end Registry

namespace Office

variable {o : Office} {cancelled : Bool} {id : StudentId} {key : SectionKey} {answer : Answer}

/-- What is known of an enrollment that went through. -/
lemma joined_of_done (hr : o.registry.Sound)
    (hdone : (o.handle cancelled (.enroll id key)).1.outcome = .done answer) :
    ∃ student ref s units place, student.id = id ∧
      o.registry.students.get? id = some student ∧
      o.registry.catalog.lookup key = some (ref, s) ∧
      Student.addUnits? student.units s.units = some units ∧
      student.courses.get? key.course = none ∧ s.seats.nextPlace = some place ∧
      (o.handle cancelled (.enroll id key)).2.registry =
        o.registry.joined ref s place (student.hold key units) := by
  obtain ⟨plan, hdecide, hregistry, -⟩ := handle_of_done hdone
  obtain ⟨⟨record, result, event⟩, hchanges, heffect⟩ := decide_enroll_eq_ok hdecide
  have hresult : (o.handle cancelled (.enroll id key)).2.registry = result := by
    rw [hregistry, hchanges]
    rfl
  rw [hresult]
  cases heffect with
  | enroll known _ found _ sum _ fresh _ vacant =>
    obtain rfl := hr.filed known
    exact ⟨_, _, _, _, _, rfl, known, found, sum, fresh, vacant, rfl⟩

/-- **A course that a student drops right after taking it leaves nothing behind.**  In every run
from a snapshot, if an enrollment goes through in a section where no seat is free in front of a
waitlist, then staff can drop the course for the student and the registry is exactly the one from
before; and while the window is open and an action is left, the student can drop it too, and the
only difference is that one action. -/
theorem run_enroll_undone {snapshot : Snapshot} {r : Registry} (built : snapshot.build = .ok r)
    (clock : Instant) (outbox : Outbox) (turns : List Turn) (cancelled cancelled' : Bool)
    (id : StudentId) (key : SectionKey) :
    let o := (run ⟨r, clock, outbox⟩ turns).2
    let o₁ := (o.handle cancelled (.enroll id key)).2
    let dropped := o₁.handle cancelled' (.staffDrop id key.course)
    o.registry.SectionAt (fun s =>
      ¬ (s.seats.registered.size < s.seats.capacity.toNat ∧ s.seats.waitlist ≠ [])) key →
    (o.handle cancelled (.enroll id key)).1.outcome = .done .done →
    (∀ record, (o₁.outbox.offer cancelled' record).1 = .taken) →
    (dropped.1.outcome = .done .done ∧ dropped.2.registry = o.registry) ∧
    ∃ student, o.registry.students.get? id = some student ∧
      ∀ now, student.windowOpen now = true → student.actions ≠ 0 →
        let paid := Office.handle { o₁ with clock := now } cancelled' (.drop id key.course)
        paid.1.outcome = .done .done ∧ paid.2.registry = { o.registry with
          students := o.registry.students.insert id
            { student with actions := student.actions - 1 } } := by
  intro o o₁ dropped front hdone accepts
  have hr : o.registry.Consistent :=
    (Snapshot.build_consistent built).run (o := ⟨r, clock, outbox⟩) turns
  obtain ⟨student, ref, s, units, place, rfl, known, found, sum, fresh, vacant, hjoined⟩ :=
    joined_of_done hr.sound hdone
  change o₁.registry = _ at hjoined
  have hfront := front ref s found
  constructor
  · obtain ⟨record, event, hdrop⟩ :=
      Registry.staffDrop_joined hr known found sum fresh vacant hfront
    have hdecide : o₁.decide (.staffDrop student.id key.course) =
        .ok ⟨[⟨record, o.registry, event⟩], .done⟩ := by
      rw [Office.decide, hjoined, hdrop]
      rfl
    exact handle_of_accepted cancelled' accepts hdecide
  · refine ⟨student, known, fun now opened able => ?_⟩
    obtain ⟨record, event, hdrop⟩ :=
      Registry.drop_joined hr known found sum fresh vacant hfront opened able
    have hdecide : Office.decide { o₁ with clock := now } (.drop student.id key.course) =
        .ok ⟨[⟨record, o.registry.putStudent student.spendAction, event⟩], .done⟩ := by
      rw [Office.decide, hjoined, hdrop]
      rfl
    exact handle_of_accepted (o := { o₁ with clock := now }) cancelled' accepts hdecide

/-- Once student 1 has left group 1 and student 2 has moved up, student 3 gets the place to wait and
gives it up again. -/
theorem run_enroll_undone_small :
    let o := (run ⟨.small, .epoch, .script .accepting⟩
      [.call (.request false (.drop ⟨1⟩ ⟨100⟩))]).2
    let o₁ := (o.handle false (.enroll ⟨3⟩ ⟨⟨100⟩, ⟨1⟩⟩)).2
    (o₁.registry.catalog.lookup ⟨⟨100⟩, ⟨1⟩⟩).map (·.2.seats.waitlist) = some [⟨3⟩] ∧
    (o₁.handle false (.staffDrop ⟨3⟩ ⟨100⟩)).2.registry = o.registry ∧
    ∃ student, o.registry.students.get? ⟨3⟩ = some student ∧ student.actions = 2 ∧
      (o₁.handle false (.drop ⟨3⟩ ⟨100⟩)).2.registry = { o.registry with
        students := o.registry.students.insert ⟨3⟩ { student with actions := 1 } } := by
  have front : ∀ found : Option (Catalog.Ref × Section),
      found.map (·.2.seats.waitlist) = some [] → ∀ ref s, found = some (ref, s) →
        ¬ (s.seats.registered.size < s.seats.capacity.toNat ∧ s.seats.waitlist ≠ []) := by
    rintro _ hnobody ref s rfl ⟨-, hwaiting⟩
    exact hwaiting (Option.some.inj hnobody)
  have accepts : ∀ outbox : Outbox, outbox = .script .accepting →
      ∀ record, (outbox.offer false record).1 = .taken := by
    rintro _ rfl _
    rfl
  have able : ∀ known : Option Student,
      known.map (fun s => (s.windowOpen .epoch, s.actions)) = some (true, 2) →
        ∀ s, known = some s → s.windowOpen .epoch = true ∧ s.actions = 2 := by
    rintro _ hable s rfl
    exact Prod.mk.inj (Option.some.inj hable)
  obtain ⟨⟨-, hdropped⟩, student, known, hgiven⟩ := run_enroll_undone Snapshot.small_build .epoch
    (.script .accepting) [.call (.request false (.drop ⟨1⟩ ⟨100⟩))] false false ⟨3⟩
    ⟨⟨100⟩, ⟨1⟩⟩ (front _ (by decide +kernel)) (by decide +kernel) (accepts _ (by decide +kernel))
  obtain ⟨opened, htwo⟩ : student.windowOpen .epoch = true ∧ student.actions = 2 :=
    able _ (by decide +kernel) student known
  have hpaid := (hgiven .epoch opened (by rw [htwo]; decide)).2
  rw [htwo] at hpaid
  exact ⟨by decide +kernel, hdropped, student, known, htwo, hpaid⟩

end Office

end CourseRegistration
