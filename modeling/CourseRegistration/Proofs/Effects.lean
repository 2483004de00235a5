import CourseRegistration.Office
import CourseRegistration.Proofs.Decision

/-!
# What a request does to a registry

`Registry.Effect` lists everything that a request can do: eight ways of changing the registry, each
with all that was checked before, and the records that are in the journal for it.  It is the one
place where the workflows are taken apart (`decide_planned`); what holds of every request is proved
by a case analysis on it.

`Office.handle_effect` is the main statement: whatever the registry, the clock, the outbox and the
request, the effect of serving the request is one of those listed.  A full section that grows for a
student who is then not recorded is the case `raise`; no other request is carried out in part.
-/

namespace CourseRegistration

open Journal Check

/-- The section with one more registered seat. -/
def Section.grown (s : Section) : Section :=
  s.withSeats { s.seats with capacity := s.seats.capacity + 1 }

namespace Registry

/-- `Effect now r request records r'` says that serving `request` at time `now` can take the
registry from `r` to `r'` with `records` taken by the journal. -/
inductive Effect (now : Instant) (r : Registry) : Request → List Record → Registry → Prop
  /-- Nothing is recorded and nothing changes. -/
  | nothing {request} : Effect now r request [] r
  /-- The student takes the next free place. -/
  | enroll {id key student ref wanted units place}
      (known : r.students.get? id = some student)
      (opened : student.windowOpen now = true)
      (found : r.catalog.lookup key = some (ref, wanted))
      (admitted : wanted.lock.admits student.gender = true)
      (sum : Student.addUnits? student.units wanted.units = some units)
      (within : units ≤ student.maxUnits)
      (fresh : student.courses.get? key.course = none)
      (clear : r.checkClashes id wanted student.held = .ok ())
      (vacant : wanted.seats.nextPlace = some place) :
      Effect now r (.enroll id key) [wanted.record (.enroll id wanted.key (place = .waitlisted))]
        ((r.putSection ref (wanted.withSeats (wanted.seats.give id place))).putStudent
          (student.hold key units))
  /-- The student gives up the place in a course. -/
  | drop {id course student group ref held}
      (known : r.students.get? id = some student)
      (opened : student.windowOpen now = true)
      (able : student.actions ≠ 0)
      (holds : student.courses.get? course = some group)
      (found : r.catalog.lookup ⟨course, group⟩ = some (ref, held))
      (seated : held.seats.holds student.id = true) :
      Effect now r (.drop id course) [held.record (.drop student.id held.key.course)]
        ((r.putSection ref (held.withSeats (held.seats.vacate student.id))).putStudent
          (student.letGo course held.units).spendAction)
  /-- The student moves to another group of a course. -/
  | switchGroup {id key student group ref source ref' destination total place}
      (known : r.students.get? id = some student)
      (opened : student.windowOpen now = true)
      (able : student.actions ≠ 0)
      (holds : student.courses.get? key.course = some group)
      (other : group ≠ key.group)
      (found : r.catalog.lookup ⟨key.course, group⟩ = some (ref, source))
      (found' : r.catalog.lookup key = some (ref', destination))
      (admitted : destination.lock.admits student.gender = true)
      (sum : Student.addUnits? student.units destination.units = some total)
      (within : destination.units ≤ source.units ∨
        Student.subUnits total source.units ≤ student.maxUnits)
      (clear : r.checkClashes id destination
        (student.held.filter fun k => k.course != key.course) = .ok ())
      (seated : source.seats.holds id = true)
      (vacant : destination.seats.nextPlace = some place) :
      Effect now r (.switchGroup id key)
        [source.record (.switchGroup id ⟨source.key.course, destination.key.group⟩)]
        (((r.putSection ref (source.withSeats (source.seats.vacate id))).putSection ref'
          (destination.withSeats (destination.seats.give id place))).putStudent
          (student.hold key (Student.subUnits total source.units)).spendAction)
  /-- Staff give the student a free registered seat. -/
  | staffEnroll {id key student ref wanted}
      (known : r.students.get? id = some student)
      (found : r.catalog.lookup key = some (ref, wanted))
      (fresh : student.courses.get? key.course = none)
      (room : wanted.seats.isFull = false) :
      Effect now r (.staffEnroll id key) [wanted.record (.enroll id wanted.key false)]
        ((r.putSection ref (wanted.withSeats (wanted.seats.give id .registered))).putStudent
          (student.hold key (Student.addUnits student.units wanted.units)))
  /-- A full section grows for a student whom staff enroll, and the student is not recorded. -/
  | raise {id key student ref wanted}
      (known : r.students.get? id = some student)
      (found : r.catalog.lookup key = some (ref, wanted))
      (fresh : student.courses.get? key.course = none)
      (full : wanted.seats.isFull = true)
      (fits : wanted.seats.capacity.toNat + 1 < UInt64.size) :
      Effect now r (.staffEnroll id key)
        [wanted.record (.resize wanted.key (wanted.seats.capacity + 1) [])]
        (r.putSection ref wanted.grown)
  /-- A full section grows for a student whom staff enroll, and the student gets the new seat. -/
  | raiseAndEnroll {id key student ref wanted}
      (known : r.students.get? id = some student)
      (found : r.catalog.lookup key = some (ref, wanted))
      (fresh : student.courses.get? key.course = none)
      (full : wanted.seats.isFull = true)
      (fits : wanted.seats.capacity.toNat + 1 < UInt64.size) :
      Effect now r (.staffEnroll id key)
        [wanted.record (.resize wanted.key (wanted.seats.capacity + 1) []),
          wanted.record (.enroll id wanted.key false)]
        ((r.putSection ref
          (wanted.grown.withSeats (wanted.grown.seats.give id .registered))).putStudent
          (student.hold key (Student.addUnits student.units wanted.units)))
  /-- Staff drop a course for the student. -/
  | staffDrop {id course student group ref held}
      (known : r.students.get? id = some student)
      (holds : student.courses.get? course = some group)
      (found : r.catalog.lookup ⟨course, group⟩ = some (ref, held))
      (seated : held.seats.holds student.id = true) :
      Effect now r (.staffDrop id course) [held.record (.drop student.id held.key.course)]
        ((r.putSection ref (held.withSeats (held.seats.vacate student.id))).putStudent
          (student.letGo course held.units))
  /-- The capacity of a section changes. -/
  | resize {key ref s capacity}
      (found : r.catalog.lookup key = some (ref, s))
      (enough : s.seats.registered.size ≤ capacity.toNat)
      (differs : capacity ≠ s.seats.capacity) :
      Effect now r (.resize key capacity)
        [s.record (.resize s.key capacity (s.seats.promoted capacity))]
        (r.putSection ref (s.withSeats (s.seats.resize capacity)))

/-! ## Lookups that went through -/

variable {r : Registry} {now : Instant} {id : StudentId} {key : SectionKey} {course : CourseId}
  {student : Student} {ref : Catalog.Ref} {s : Section}

lemma student_eq_ok : r.student id = .ok student ↔ r.students.get? id = some student :=
  expect_eq_ok

lemma offered_eq_ok : r.offered key = .ok (ref, s) ↔ r.catalog.lookup key = some (ref, s) :=
  expect_eq_ok

lemma heldSection_eq_ok :
    r.heldSection id key = .ok (ref, s) ↔ r.catalog.lookup key = some (ref, s) :=
  expect_eq_ok

lemma totalWith_eq_ok {total sum : UInt16} {units : UInt8} :
    totalWith total units = .ok sum ↔ Student.addUnits? total units = some sum := by
  unfold totalWith
  split <;> simp_all

lemma not_holdsCourse_iff :
    (!student.holdsCourse course) = true ↔ student.courses.get? course = none := by
  simp [Student.holdsCourse, OrderedMap.contains]

/-! ## Moves that went through -/

lemma grant_eq_ok {plan : Plan Section (Option Place)} (h : s.grant id = .ok plan)
    (hp : plan.answer.isSome = true) :
    ∃ place event, s.seats.nextPlace = some place ∧
      plan.changes = [⟨s.record (.enroll id s.key (place = .waitlisted)),
        s.withSeats (s.seats.give id place), event⟩] := by
  unfold Section.grant at h
  split at h
  · cases h
    cases hp
  · rename_i place hplace
    cases h
    exact ⟨place, _, hplace, rfl⟩

lemma release_eq_ok {plan : Plan Section Unit} (h : s.release id = .ok plan) :
    s.seats.holds id = true ∧ ∃ event, plan.changes =
      [⟨s.record (.drop id s.key.course), s.withSeats (s.seats.vacate id), event⟩] := by
  simp only [Section.release, bind_eq_ok, require_eq_ok, pure_eq_ok] at h
  obtain ⟨-, hseated, rfl⟩ := h
  exact ⟨hseated, _, rfl⟩

lemma transfer_eq_ok {source destination : Section} {plan : Plan (Section × Section) Bool}
    (h : source.transfer destination id = .ok plan) (hp : plan.answer = true) :
    source.seats.holds id = true ∧ ∃ place event, destination.seats.nextPlace = some place ∧
      plan.changes = [⟨source.record (.switchGroup id ⟨source.key.course, destination.key.group⟩),
        (source.withSeats (source.seats.vacate id),
          destination.withSeats (destination.seats.give id place)), event⟩] := by
  simp only [Section.transfer, bind_eq_ok, require_eq_ok] at h
  obtain ⟨-, -, -, hseated, h⟩ := h
  split at h
  · cases h
    cases hp
  · rename_i place hplace
    cases h
    exact ⟨hseated, place, _, hplace, rfl⟩

/-- A section with a free registered seat makes one change, a full one makes two. -/
lemma grantByForce_eq_ok {plan : Plan Section Unit} (h : s.grantByForce id = .ok plan) :
    (s.seats.isFull = false ∧ plan.changes = [s.enterByForce id]) ∨
    (s.seats.isFull = true ∧ s.seats.capacity.toNat + 1 < UInt64.size ∧
      plan.changes = [s.raise (s.seats.capacity + 1), s.grown.enterByForce id]) := by
  unfold Section.grantByForce at h
  split at h
  · rename_i hfull
    cases h
    exact .inl ⟨by simpa using hfull, rfl⟩
  · rename_i hfull
    split at h
    · cases h
    · rename_i hfits
      cases h
      have := s.seats.capacity.toNat_lt
      exact .inr ⟨by simpa using hfull, by simp only [UInt64.size] at hfits ⊢; omega, rfl⟩

lemma resize_eq_ok {capacity : UInt64} {plan : Plan Section (List StudentId)}
    (h : s.resize capacity = .ok plan) :
    plan.changes = [] ∨
    (s.seats.registered.size ≤ capacity.toNat ∧ capacity ≠ s.seats.capacity ∧
      ∃ event, plan.changes = [⟨s.record (.resize s.key capacity (s.seats.promoted capacity)),
        s.withSeats (s.seats.resize capacity), event⟩]) := by
  simp only [Section.resize, bind_eq_ok, require_eq_ok, decide_eq_true_eq] at h
  obtain ⟨-, henough, h⟩ := h
  split at h
  · cases h
    exact .inl rfl
  · rename_i hdiffers
    cases h
    exact .inr ⟨henough, hdiffers, _, rfl⟩

/-! ## Requests that went through -/

/-- The changes that are decided for a request: none, one, or the two of a section that grows for a
student.  Making the first of them, or both, is an effect of the request. -/
inductive Planned (now : Instant) (r : Registry) (request : Request) :
    List (Change Registry) → Prop
  | none : Planned now r request []
  | one {c} (all : r.Effect now request [c.record] c.result) : Planned now r request [c]
  | two {c d} (first : r.Effect now request [c.record] c.result)
      (all : r.Effect now request [c.record, d.record] d.result) : Planned now r request [c, d]

/-- Making a plan up to any point is an effect of the request. -/
lemma Planned.effect {request : Request} {made left : List (Change Registry)}
    (h : r.Planned now request (made ++ left)) :
    r.Effect now request (made.map (·.record)) (Change.after made r) := by
  generalize hchanges : made ++ left = changes at h
  cases h with
  | none =>
    obtain ⟨rfl, -⟩ := List.append_eq_nil_iff.1 hchanges
    exact .nothing
  | one all =>
    rcases List.append_eq_singleton_iff.1 hchanges with ⟨rfl, -⟩ | ⟨rfl, -⟩
    · exact .nothing
    · exact all
  | two first all =>
    rcases made with _ | ⟨c, _ | ⟨d, rest⟩⟩
    · exact .nothing
    · cases hchanges
      exact first
    · obtain ⟨rfl, rfl, hrest⟩ : _ ∧ _ ∧ rest ++ left = [] := by simpa using hchanges
      obtain ⟨rfl, -⟩ := List.append_eq_nil_iff.1 hrest
      exact all

variable {plan : Plan Registry Unit}

/-- An enrollment comes down to one change. -/
lemma enroll_eq_ok (h : r.enroll now id key = .ok plan) :
    ∃ c, plan.changes = [c] ∧ r.Effect now (.enroll id key) [c.record] c.result := by
  simp only [Registry.enroll, bind_eq_ok, require_eq_ok, student_eq_ok, totalWith_eq_ok,
    Prod.exists, offered_eq_ok, pure_eq_ok, decide_eq_true_eq, not_holdsCourse_iff] at h
  obtain ⟨student, known, -, opened, ref, wanted, found, -, admitted, units, sum, -, within,
    -, fresh, ⟨⟩, clear, moves, granted, -, placed, rfl⟩ := h
  obtain ⟨place, event, vacant, hchanges⟩ := grant_eq_ok granted placed
  simp only [Registry.atSection, Plan.settle, hchanges]
  exact ⟨_, rfl, .enroll known opened found admitted sum within fresh clear vacant⟩

lemma enroll_planned (h : r.enroll now id key = .ok plan) :
    r.Planned now (.enroll id key) plan.changes := by
  obtain ⟨c, hchanges, all⟩ := enroll_eq_ok h
  rw [hchanges]
  exact .one all

/-- Both ways of dropping a course come down to the release of one place. -/
lemma releaseCourse_eq_ok {after : Student → Student}
    (h : r.releaseCourse student course after = .ok plan) :
    ∃ group ref held event, student.courses.get? course = some group ∧
      r.catalog.lookup ⟨course, group⟩ = some (ref, held) ∧
      held.seats.holds student.id = true ∧
      plan.changes = [⟨held.record (.drop student.id held.key.course),
        (r.putSection ref (held.withSeats (held.seats.vacate student.id))).putStudent
          (after (student.letGo course held.units)), event⟩] := by
  simp only [Registry.releaseCourse, bind_eq_ok, expect_eq_ok, Prod.exists, heldSection_eq_ok,
    pure_eq_ok] at h
  obtain ⟨group, holds, ref, held, found, moves, released, rfl⟩ := h
  obtain ⟨seated, event, hchanges⟩ := release_eq_ok released
  refine ⟨group, ref, held, event, holds, found, seated, ?_⟩
  simp only [Registry.atSection, Plan.settle, hchanges]
  rfl

/-- A held course whose section has the student is let go. -/
lemma releaseCourse_eq {group : GroupId} {held : Section} (after : Student → Student)
    (holds : student.courses.get? course = some group)
    (found : r.catalog.lookup ⟨course, group⟩ = some (ref, held))
    (seated : held.seats.holds student.id = true) :
    r.releaseCourse student course after =
      .ok ⟨[⟨held.record (.drop student.id held.key.course),
        (r.putSection ref (held.withSeats (held.seats.vacate student.id))).putStudent
          (after (student.letGo course held.units)), .removed student.id held.key⟩], ()⟩ := by
  simp only [Registry.releaseCourse, Section.release, expect_eq_ok.2 holds,
    heldSection_eq_ok.2 found, seated, require_true, ok_bind]
  rfl

/-- A course that the student gives up comes down to one change. -/
lemma drop_eq_ok (h : r.drop now id course = .ok plan) :
    ∃ c, plan.changes = [c] ∧ r.Effect now (.drop id course) [c.record] c.result := by
  simp only [Registry.drop, bind_eq_ok, require_eq_ok, student_eq_ok, bne_iff_ne] at h
  obtain ⟨student, known, -, opened, -, able, h⟩ := h
  obtain ⟨group, ref, held, event, holds, found, seated, hchanges⟩ := releaseCourse_eq_ok h
  exact ⟨_, hchanges, .drop known opened able holds found seated⟩

lemma drop_planned (h : r.drop now id course = .ok plan) :
    r.Planned now (.drop id course) plan.changes := by
  obtain ⟨c, hchanges, all⟩ := drop_eq_ok h
  rw [hchanges]
  exact .one all

lemma staffDrop_planned (h : r.staffDrop id course = .ok plan) :
    r.Planned now (.staffDrop id course) plan.changes := by
  simp only [Registry.staffDrop, bind_eq_ok, student_eq_ok] at h
  obtain ⟨student, known, h⟩ := h
  obtain ⟨group, ref, held, event, holds, found, seated, hchanges⟩ := releaseCourse_eq_ok h
  rw [hchanges]
  exact .one (.staffDrop known holds found seated)

/-- A change of group comes down to one change. -/
lemma switchGroup_eq_ok (h : r.switchGroup now id key = .ok plan) :
    ∃ c, plan.changes = [c] ∧ r.Effect now (.switchGroup id key) [c.record] c.result := by
  simp only [Registry.switchGroup, bind_eq_ok, require_eq_ok, expect_eq_ok, student_eq_ok,
    totalWith_eq_ok, Prod.exists, heldSection_eq_ok, offered_eq_ok, pure_eq_ok, bne_iff_ne,
    Bool.or_eq_true, decide_eq_true_eq] at h
  obtain ⟨student, known, -, opened, -, able, group, holds, -, other, ref, source, found,
    ref', destination, found', -, admitted, total, sum, -, within, ⟨⟩, clear, moves, moved, -,
    placed, rfl⟩ := h
  obtain ⟨seated, place, event, vacant, hchanges⟩ := transfer_eq_ok moved placed
  simp only [Registry.atSections, Plan.settle, hchanges]
  exact ⟨_, rfl, .switchGroup known opened able holds other found found' admitted sum within clear
    seated vacant⟩

lemma switchGroup_planned (h : r.switchGroup now id key = .ok plan) :
    r.Planned now (.switchGroup id key) plan.changes := by
  obtain ⟨c, hchanges, all⟩ := switchGroup_eq_ok h
  rw [hchanges]
  exact .one all

lemma staffEnroll_planned (h : r.staffEnroll id key = .ok plan) :
    r.Planned now (.staffEnroll id key) plan.changes := by
  simp only [Registry.staffEnroll, bind_eq_ok, require_eq_ok, student_eq_ok, Prod.exists,
    offered_eq_ok, pure_eq_ok, not_holdsCourse_iff] at h
  obtain ⟨student, known, ref, wanted, found, -, fresh, moves, granted, rfl⟩ := h
  rcases grantByForce_eq_ok granted with ⟨room, hchanges⟩ | ⟨full, fits, hchanges⟩
  · simp only [Registry.atSection, Plan.settle, hchanges]
    exact .one (.staffEnroll known found fresh room)
  · simp only [Registry.atSection, Plan.settle, hchanges]
    exact .two (.raise known found fresh full fits) (.raiseAndEnroll known found fresh full fits)

lemma resize_planned {capacity : UInt64} {plan : Plan Registry (List StudentId)}
    (found : r.catalog.lookup key = some (ref, s)) (h : r.resize ref s capacity = .ok plan) :
    r.Planned now (.resize key capacity) plan.changes := by
  simp only [Registry.resize, bind_eq_ok, pure_eq_ok] at h
  obtain ⟨moves, resized, rfl⟩ := h
  rcases resize_eq_ok resized with hchanges | ⟨enough, differs, event, hchanges⟩
  · simp only [Registry.atSection, hchanges]
    exact .none
  · simp only [Registry.atSection, hchanges]
    exact .one (.resize found enough differs)

end Registry

/-! ## Serving a request -/

namespace Office

variable {o : Office} {request : Request}

/-- **Whatever is decided about a request is a plan of listed effects.** -/
theorem decide_planned {plan : Plan Registry Answer} (h : o.decide request = .ok plan) :
    o.registry.Planned o.clock request plan.changes := by
  cases request with
  | enroll id key =>
    simp only [Office.decide, bind_eq_ok, pure_eq_ok] at h
    obtain ⟨inner, hinner, rfl⟩ := h
    exact Registry.enroll_planned hinner
  | drop id course =>
    simp only [Office.decide, bind_eq_ok, pure_eq_ok] at h
    obtain ⟨inner, hinner, rfl⟩ := h
    exact Registry.drop_planned hinner
  | switchGroup id key =>
    simp only [Office.decide, bind_eq_ok, pure_eq_ok] at h
    obtain ⟨inner, hinner, rfl⟩ := h
    exact Registry.switchGroup_planned hinner
  | staffEnroll id key =>
    simp only [Office.decide, bind_eq_ok, pure_eq_ok] at h
    obtain ⟨inner, hinner, rfl⟩ := h
    exact Registry.staffEnroll_planned hinner
  | staffDrop id course =>
    simp only [Office.decide, bind_eq_ok, pure_eq_ok] at h
    obtain ⟨inner, hinner, rfl⟩ := h
    exact Registry.staffDrop_planned hinner
  | resize key capacity =>
    simp only [Office.decide, bind_eq_ok, pure_eq_ok, Prod.exists, Registry.offered_eq_ok] at h
    obtain ⟨ref, s, found, inner, hinner, rfl⟩ := h
    exact Registry.resize_planned found hinner

/-- Announcing a failure adds an event and nothing else. -/
lemma handle_eq (o : Office) (cancelled : Bool) (request : Request) :
    ∃ events, o.handle cancelled request =
      (let (report, registry, outbox) := execute cancelled (o.decide request) o.registry o.outbox
       ({ report with events := events }, { o with registry := registry, outbox := outbox })) := by
  have announced : ∀ (p : Report Answer) action subject,
      ∃ events, p.announcing action subject = { p with events := events } := by
    intro p action subject
    unfold Report.announcing
    split
    · exact ⟨_, rfl⟩
    · exact ⟨_, rfl⟩
  unfold Office.handle Office.carry
  dsimp only
  split
  · obtain ⟨events, he⟩ := announced (execute cancelled (o.decide request) o.registry o.outbox).1
      request.action request.subject
    exact ⟨events, by rw [he]⟩
  · exact ⟨_, rfl⟩

lemma handle_of_error (cancelled : Bool) {halt : Halt} (h : o.decide request = .error halt) :
    (o.handle cancelled request).2 = o ∧ (o.handle cancelled request).1.taken = [] ∧
      (o.handle cancelled request).1.declined = [] := by
  obtain ⟨events, he⟩ := handle_eq o cancelled request
  rw [he, h]
  cases halt <;> exact ⟨rfl, rfl, rfl⟩

lemma handle_of_ok (cancelled : Bool) {plan : Plan Registry Answer}
    (h : o.decide request = .ok plan) :
    let p := carryOut cancelled plan.changes o.registry o.outbox
    (o.handle cancelled request).2 = { o with registry := p.state, outbox := p.outbox } ∧
      (o.handle cancelled request).1.taken = p.taken ∧
      (o.handle cancelled request).1.declined = p.declined ∧
      (o.handle cancelled request).1.outcome = Report.outcomeOf plan.answer p.stop := by
  obtain ⟨events, he⟩ := handle_eq o cancelled request
  rw [he, h]
  exact ⟨rfl, rfl, rfl, rfl⟩

/-- **Serving a request has one of the listed effects**, whatever the state of the office. -/
theorem handle_effect (o : Office) (cancelled : Bool) (request : Request) :
    o.registry.Effect o.clock request (o.handle cancelled request).1.taken
      (o.handle cancelled request).2.registry := by
  cases hdecide : o.decide request with
  | error halt =>
    obtain ⟨hoffice, htaken, -⟩ := handle_of_error cancelled hdecide
    rw [hoffice, htaken]
    exact .nothing
  | ok plan =>
    obtain ⟨hoffice, htaken, -⟩ := handle_of_ok cancelled hdecide
    obtain ⟨made, left, hsplit, hstate, hrecords, -⟩ :=
      carryOut_spec cancelled plan.changes o.registry o.outbox
    rw [hoffice, htaken, hrecords]
    simp only [hstate]
    have hplan := decide_planned hdecide
    rw [hsplit] at hplan
    exact hplan.effect

end Office

end CourseRegistration
