import CourseRegistration.Proofs.SectionSteps
import CourseRegistration.Proofs.Snapshot

/-!
# Nobody who waits is bypassed

Whoever waits in a section gets the next registered seat that becomes free.  So while somebody waits
no registered seat is free, and a newcomer can only wait behind.  A freed seat goes to the head of
the waitlist, and a larger capacity is filled from there.

There is one way to an idle seat in front of a waitlist.  A full section grows for a student whom
staff enroll; the new seat is kept even if the student is then not recorded, and nobody moves up
into it.  The report of such a request is `Stalled`.  At most one seat is idle then, however often
that happens, since a section with an idle seat is not full and does not grow.  Students may take
the idle seat without waiting (`stalled_seat_bypasses`).

The main statement, `run_full_while_waiting`, is that nothing else leaves a seat idle: a section
that is full while somebody waits stays so until a request stalls there, and until then ordinary
requests leave its registered students as they are while somebody waits.
-/

namespace CourseRegistration

open Journal Check

/-- While somebody waits in the section under the key, every registered seat there is taken. -/
def Registry.FullWhileWaiting (r : Registry) (key : SectionKey) : Prop :=
  ∀ ref s, r.catalog.lookup key = some (ref, s) → s.seats.waitlist ≠ [] →
    s.seats.registered.size = s.seats.capacity.toNat

/-- The section under the key has grown for a student, and the record of the student was then not
taken. -/
def Report.Stalled {α : Type} (p : Report α) (key : SectionKey) : Prop :=
  ∃ department capacity student, p.taken = [⟨department, .resize key capacity []⟩] ∧
    p.declined = [⟨department, .enroll student key false⟩]

namespace Seats

variable {s : Seats} {k : Nat}

lemma Bounded.full_iff (hs : s.Bounded) :
    s.IdleAtMost 0 ↔ (s.waitlist ≠ [] → s.registered.size = s.capacity.toNat) := by
  have hle := hs.registered_le
  constructor
  · intro hidle hwaits
    have := hidle hwaits
    omega
  · intro hfull hwaits
    have := hfull hwaits
    omega

/-- Behind a waitlist in front of which no seat is idle, the next place is at its end. -/
lemma nextPlace_of_waiting {place : Place} (hidle : s.IdleAtMost 0) (hwaits : s.waitlist ≠ [])
    (vacant : s.nextPlace = some place) : place = .waitlisted := by
  rcases nextPlace_eq_some_iff.1 vacant with ⟨-, hroom⟩ | ⟨hplace, -⟩
  · have := hidle hwaits
    omega
  · exact hplace

end Seats

namespace Section.Step

variable {s : Section} {request : Request} {records : List Record} {seats : Seats} {k : Nat}

lemma bounded (h : s.Step request records seats) (hs : s.seats.Bounded) : seats.Bounded := by
  cases h with
  | stay => exact hs
  | move move => exact move.bounded hs
  | raise full fits => exact hs.raised fits

/-- A full section that grows has one idle seat, and no other step adds to the idle seats. -/
lemma idleAtMost_one (h : s.Step request records seats) (orderly : s.seats.Orderly)
    (hs : s.seats.IdleAtMost 1) : seats.IdleAtMost 1 := by
  cases h with
  | stay => exact hs
  | move move => exact move.idleAtMost orderly hs
  | raise full fits => exact Seats.idleAtMost_raised full fits

end Section.Step

namespace Registry

variable {r r' : Registry} {now : Instant} {id : StudentId} {key : SectionKey} {ref : Catalog.Ref}
  {s : Section} {records : List Record} {request : Request}

/-! ## Built registries -/

/-- In a built registry the seats of every section are within their bounds, and none is idle in
front of a waitlist. -/
lemma seats_of_build {snapshot : Snapshot} (built : snapshot.build = .ok r) (key : SectionKey) :
    r.SectionAt (fun s => s.seats.Bounded ∧ s.seats.IdleAtMost 0) key := by
  intro ref s found
  obtain ⟨t, hloadable, -, rfl⟩ := Snapshot.section_of_build built found
  exact ⟨Seats.bounded_seatInOrder hloadable.nodup hloadable.room,
    Seats.idleAtMost_seatInOrder hloadable.nodup⟩

lemma fullWhileWaiting_iff (hbounded : r.SectionAt (·.seats.Bounded) key) :
    r.FullWhileWaiting key ↔ r.SectionAt (·.seats.IdleAtMost 0) key := by
  constructor
  · intro h ref s found
    exact (hbounded ref s found).full_iff.2 (h ref s found)
  · intro h ref s found
    exact (hbounded ref s found).full_iff.1 (h ref s found)

/-! ## Requests for a place -/

/-- A request for a place in a section that is full while somebody waits leaves its registered
students as they are. -/
lemma Effect.registered_of_waiting (h : r.Effect now request records r')
    (hrequest : request = .enroll id key ∨ request = .switchGroup id key)
    (found : r.catalog.lookup key = some (ref, s)) (hidle : s.seats.IdleAtMost 0)
    (hwaits : s.seats.waitlist ≠ []) :
    ∃ s', r'.catalog.lookup key = some (ref, s') ∧ s'.seats.registered = s.seats.registered := by
  rcases hrequest with rfl | rfl
  · cases h with
    | nothing => exact ⟨s, found, rfl⟩
    | enroll _ _ found' _ _ _ _ _ vacant =>
      rw [found] at found'
      cases found'
      obtain rfl := Seats.nextPlace_of_waiting hidle hwaits vacant
      exact ⟨_, lookup_putSeats_self found _, rfl⟩
  · cases h with
    | nothing => exact ⟨s, found, rfl⟩
    | switchGroup _ _ _ _ other found₁ found' _ _ _ _ _ vacant =>
      rw [found] at found'
      cases found'
      obtain rfl := Seats.nextPlace_of_waiting hidle hwaits vacant
      exact ⟨_, lookup_putSeats_self (lookup_putSeats_of_other found₁ other found _) _, rfl⟩

end Registry

namespace Office

variable {o : Office} {key : SectionKey} {id : StudentId}

/-! ## Requests that stall -/

/-- Staff who enroll a student record the student, in a full section after its new capacity. -/
lemma staffEnroll_records {r : Registry} {plan : Plan Registry Unit}
    (h : r.staffEnroll id key = .ok plan) :
    ∃ s : Section, plan.changes.map (·.record) = [s.record (.enroll id s.key false)] ∨
      plan.changes.map (·.record) = [s.record (.resize s.key (s.seats.capacity + 1) []),
        s.record (.enroll id s.key false)] := by
  simp only [Registry.staffEnroll, bind_eq_ok, pure_eq_ok] at h
  obtain ⟨student, -, ⟨ref, wanted⟩, -, -, -, moves, granted, rfl⟩ := h
  refine ⟨wanted, ?_⟩
  rcases Registry.grantByForce_eq_ok granted with ⟨-, hchanges⟩ | ⟨-, -, hchanges⟩
  · left
    simp only [Registry.atSection, Plan.settle, hchanges]
    rfl
  · right
    simp only [Registry.atSection, Plan.settle, hchanges]
    rfl

/-- If the journal has taken nothing but a new capacity, the record of the student came next. -/
lemma handle_stalled {cancelled : Bool} {department : DepartmentId} {capacity : UInt64}
    (h : (o.handle cancelled (.staffEnroll id key)).1.taken =
      [⟨department, .resize key capacity []⟩]) :
    (o.handle cancelled (.staffEnroll id key)).1.Stalled key := by
  refine ⟨department, capacity, id, h, ?_⟩
  cases hdecide : o.decide (.staffEnroll id key) with
  | error halt =>
    rw [(handle_of_error cancelled hdecide).2.1] at h
    cases h
  | ok plan =>
    obtain ⟨-, htaken, hdeclined, -⟩ := handle_of_ok cancelled hdecide
    obtain ⟨made, left, hsplit, -, hmade, hleft, -⟩ :=
      carryOut_spec cancelled plan.changes o.registry o.outbox
    rw [htaken, hmade] at h
    rw [hdeclined, hleft, List.map_take]
    simp only [Office.decide, bind_eq_ok, pure_eq_ok] at hdecide
    obtain ⟨inner, hinner, rfl⟩ := hdecide
    have hrecords : inner.changes.map (·.record) = made.map (·.record) ++ left.map (·.record) := by
      rw [← List.map_append]
      exact congrArg _ hsplit
    obtain ⟨s, hone | htwo⟩ := staffEnroll_records hinner
    · rw [h, hone] at hrecords
      cases hrecords
    · rw [h, htwo] at hrecords
      obtain ⟨hfirst, hrest⟩ := List.cons_eq_cons.1 hrecords
      cases hfirst
      have hnext : [s.record (.enroll id s.key false)] = left.map (·.record) := hrest
      rw [← hnext]
      rfl

/-! ## Runs -/

/-- Whatever happens in a run, no more than one seat is idle in front of a waitlist. -/
lemma run_idleAtMost_one (hr : o.registry.Consistent)
    (start : o.registry.SectionAt (fun s => s.seats.Bounded ∧ s.seats.IdleAtMost 1) key)
    (turns : List Turn) :
    (o.run turns).2.registry.SectionAt (fun s => s.seats.Bounded ∧ s.seats.IdleAtMost 1) key := by
  refine run_keeps_section ?_ (fun time h => h) turns hr start
  rintro s request records seats orderly step ⟨hbounded, hidle⟩
  exact ⟨step.bounded hbounded, step.idleAtMost_one orderly hidle⟩

/-- A turn that does not stall at a section leaves no seat idle there in front of a waitlist, if
none was. -/
lemma turn_idleAtMost_zero (hr : o.registry.Consistent)
    (hidle : o.registry.SectionAt (·.seats.IdleAtMost 0) key) (t : Turn)
    (reports : ∀ p ∈ (o.turn t).1, ¬ p.Stalled key) :
    (o.turn t).2.registry.SectionAt (·.seats.IdleAtMost 0) key := by
  rcases o.turn_cases t with heq | ⟨ref, time, -, heq⟩ | ⟨cancelled, request, -, hreport, heq⟩
  · rw [heq]
    exact hidle
  · rw [heq]
    exact hidle.setExamTime hr.sound ref time fun h => h
  · rw [heq]
    have hstep := (o.handle_effect cancelled request).stepAt hr key
    refine hstep.sectionAt (fun found step hs => ?_) hidle
    generalize htaken : (o.handle cancelled request).1.taken = taken at step
    cases step with
    | stay => exact hs
    | move move => exact move.idleAtMost (hr.agrees.orderly (Registry.seats_ledger found)) hs
    | raise full fits =>
      -- the section has grown and the student was not recorded, so the request stalled
      obtain rfl := hr.sound.catalog.key_of_lookup found
      refine absurd (handle_stalled htaken) (reports ((o.handle cancelled _).1.map .met) ?_)
      rw [hreport]
      exact List.mem_singleton_self _

/-- In a run that does not stall at a section no seat becomes idle there in front of a waitlist. -/
lemma run_idleAtMost_zero (hr : o.registry.Consistent)
    (hidle : o.registry.SectionAt (·.seats.IdleAtMost 0) key) (turns : List Turn)
    (reports : ∀ p ∈ (o.run turns).1, ¬ p.Stalled key) :
    (o.run turns).2.registry.SectionAt (·.seats.IdleAtMost 0) key := by
  refine Registry.Consistent.run_keeps_while (P := (·.SectionAt (·.seats.IdleAtMost 0) key))
    (H := fun _ => True) turns ?_ hr hidle reports fun _ _ => trivial
  intro o t _ hr hidle hreports _
  exact turn_idleAtMost_zero hr hidle t hreports

/-- **A section that is full while somebody waits stays so until a request stalls there.**  It is so
in every registry that a snapshot makes, and never is more than one seat idle in front of a
waitlist.  As long as it is so, and somebody waits, no request of a student for a place there
changes who is registered. -/
theorem run_full_while_waiting {snapshot : Snapshot} {r : Registry}
    (built : snapshot.build = .ok r) (clock : Instant) (outbox : Outbox) (key : SectionKey)
    (earlier later : List Turn) :
    let (_, o) := run ⟨r, clock, outbox⟩ earlier
    let (reports, o') := run o later
    r.FullWhileWaiting key ∧
    (∀ ref s, o.registry.catalog.lookup key = some (ref, s) → s.seats.waitlist ≠ [] →
      s.seats.registered.size ≤ s.seats.capacity.toNat ∧
        s.seats.capacity.toNat ≤ s.seats.registered.size + 1) ∧
    (o.registry.FullWhileWaiting key → (∀ p ∈ reports, ¬ p.Stalled key) →
      o'.registry.FullWhileWaiting key ∧
      ∀ cancelled id request, (request = .enroll id key ∨ request = .switchGroup id key) →
        ∀ ref s, o'.registry.catalog.lookup key = some (ref, s) → s.seats.waitlist ≠ [] →
          ∃ s', (o'.handle cancelled request).2.registry.catalog.lookup key = some (ref, s') ∧
            s'.seats.registered = s.seats.registered) := by
  have hr : r.Consistent := Snapshot.build_consistent built
  have hbuilt := Registry.seats_of_build built key
  have hr' := hr.run (o := ⟨r, clock, outbox⟩) earlier
  have hmid := run_idleAtMost_one (o := ⟨r, clock, outbox⟩) hr
    (fun ref s found => (hbuilt ref s found).imp_right fun h => h.mono (Nat.zero_le 1)) earlier
  refine ⟨?_, ?_, ?_⟩
  · exact (Registry.fullWhileWaiting_iff fun ref s found => (hbuilt ref s found).1).2
      fun ref s found => (hbuilt ref s found).2
  · intro ref s found hwaits
    obtain ⟨hbounded, hidle⟩ := hmid ref s found
    exact ⟨hbounded.registered_le, hidle hwaits⟩
  · intro hfull hreports
    have hend := run_idleAtMost_one hr' hmid later
    have hidle := (Registry.fullWhileWaiting_iff fun ref s found => (hmid ref s found).1).1 hfull
    have hidle' := run_idleAtMost_zero hr' hidle later hreports
    refine ⟨(Registry.fullWhileWaiting_iff fun ref s found => (hend ref s found).1).2 hidle', ?_⟩
    intro cancelled id request hrequest ref s found hwaits
    exact (handle_effect _ cancelled request).registered_of_waiting hrequest found
      (hidle' ref s found) hwaits

/-- Student 1 leaves, student 2 moves up, and student 3 waits behind a section that is full. -/
theorem run_full_while_waiting_small :
    let key : SectionKey := ⟨⟨100⟩, ⟨1⟩⟩
    let (_, o) := run ⟨.small, .epoch, .script .accepting⟩
      [.call (.request false (.drop ⟨1⟩ ⟨100⟩)), .call (.request false (.enroll ⟨3⟩ key))]
    o.registry.FullWhileWaiting key ∧ ∃ ref s, o.registry.catalog.lookup key = some (ref, s) ∧
      s.seats.registered.items = [⟨2⟩] ∧ s.seats.waitlist = [⟨3⟩] := by
  intro key
  let turns : List Turn :=
    [.call (.request false (.drop ⟨1⟩ ⟨100⟩)), .call (.request false (.enroll ⟨3⟩ key))]
  have hdeclined : ∀ p ∈ (run ⟨.small, .epoch, .script .accepting⟩ turns).1, p.declined = [] := by
    decide +kernel
  obtain ⟨hstart, -, hkeeps⟩ := run_full_while_waiting Snapshot.small_build .epoch
    (.script .accepting) key [] turns
  refine ⟨(hkeeps hstart fun p hp hstalled => ?_).1, _, _, rfl, rfl, rfl⟩
  obtain ⟨department, capacity, student, -, hnext⟩ := hstalled
  rw [hdeclined p hp] at hnext
  cases hnext

/-- The journal takes a second seat for student 3 and then closes.  Later student 3 enrolls and gets
the idle seat, while student 2 still waits. -/
theorem stalled_seat_bypasses :
    let key : SectionKey := ⟨⟨100⟩, ⟨1⟩⟩
    let (_, o) := run ⟨.small, .epoch, .script ⟨[.accept], .refuse .closed⟩⟩
      [.call (.request false (.staffEnroll ⟨3⟩ key)), .outbox (.script .accepting)]
    Snapshot.small.build = .ok .small ∧ ¬ o.registry.FullWhileWaiting key ∧
      ∃ ref s s', o.registry.catalog.lookup key = some (ref, s) ∧ s.seats.waitlist = [⟨2⟩] ∧
        (o.handle false (.enroll ⟨3⟩ key)).2.registry.catalog.lookup key = some (ref, s') ∧
        s'.seats.registered.items = [⟨1⟩, ⟨3⟩] ∧ s'.seats.waitlist = [⟨2⟩] := by
  refine ⟨Snapshot.small_build, fun hfull => ?_, _, _, _, rfl, rfl, rfl, rfl, rfl⟩
  have hseats := hfull _ _ rfl (List.cons_ne_nil _ _)
  cases hseats

end Office

end CourseRegistration
