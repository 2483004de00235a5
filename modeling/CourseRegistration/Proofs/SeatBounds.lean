import CourseRegistration.Office
import CourseRegistration.Proofs.Catalog
import CourseRegistration.Proofs.Decision
import CourseRegistration.Proofs.SeatMoves
import CourseRegistration.Snapshot.Build

/-!
# Sections that are asked directly

A section can be asked for a place, for the return of one or for another capacity without anyone
looking at what students hold.  Whoever asks can then do what no workflow does: seat a student who
waits already, let one wait twice, take a place from one who has two.  The seats of a section stay
within their bounds all the same, and its reserve stays what it was.

`direct_bounded` states this for any number of new sections and any list of calls of them.  What one
call does to a section's seats is in `Section.Kept`, once for each kind of call.
-/

namespace CourseRegistration

open Journal Check

/-! ## Calls -/

/-- What can be asked of sections directly.  Each call but the first goes through the outbox, which
may be another one from some time on. -/
inductive SectionCall where
  /-- A student is seated who belongs to the section already. -/
  | seat (ref : Catalog.Ref) (student : StudentId)
  | grant (cancelled : Bool) (ref : Catalog.Ref) (student : StudentId)
  | release (cancelled : Bool) (ref : Catalog.Ref) (student : StudentId)
  | transfer (cancelled : Bool) (source destination : Catalog.Ref) (student : StudentId)
  | grantByForce (cancelled : Bool) (ref : Catalog.Ref) (student : StudentId)
  | resize (cancelled : Bool) (ref : Catalog.Ref) (capacity : UInt64)
  | outbox (outbox : Outbox)

namespace Office

/-- The office after a call of its sections.  A call of a section that is not there does nothing. -/
def direct (o : Office) : SectionCall → Office
  | .seat ref student =>
    match o.registry.catalog.get? ref with
    | none => o
    | some s => { o with registry := o.registry.putSection ref (s.seat student).2 }
  | .grant cancelled ref student => after (o.atSection cancelled ref (·.grant student))
  | .release cancelled ref student => after (o.atSection cancelled ref (·.release student))
  | .transfer cancelled source destination student =>
    after (o.atSections cancelled source destination (·.transfer · student))
  | .grantByForce cancelled ref student => after (o.atSection cancelled ref (·.grantByForce student))
  | .resize cancelled ref capacity => after (o.atSection cancelled ref (·.resize capacity))
  | .outbox outbox => { o with outbox := outbox }
where
  /-- The office that a call leaves behind. -/
  after {α : Type} (result : Option (Report α × Office)) : Office :=
    (result.map (·.2)).getD o

end Office

/-! ## One section -/

namespace Section

/-- The second section has the reserve of the first, and seats within their bounds if the first
has. -/
structure Kept (s s' : Section) : Prop where
  bounded : s.seats.Bounded → s'.seats.Bounded
  reserve_eq : s'.seats.reserve = s.seats.reserve

variable {s t : Section} {id : StudentId}

lemma kept_refl (s : Section) : s.Kept s :=
  ⟨fun h => h, rfl⟩

/-- Anyone may be given a place by a move. -/
lemma Kept.of_move {seats : Seats} (h : s.seats.Move (fun _ => True) seats) :
    s.Kept (s.withSeats seats) :=
  ⟨h.bounded, h.reserve_eq⟩

lemma kept_seat (s : Section) (id : StudentId) : s.Kept (s.seat id).2 := by
  unfold seat
  split
  · exact s.kept_refl
  · split
    · exact s.kept_refl
    · rename_i place vacant
      exact .of_move (.give trivial vacant)

lemma kept_grant {plan : Plan Section (Option Place)} (h : s.grant id = .ok plan) :
    ∀ c ∈ plan.changes, s.Kept c.result := by
  unfold grant at h
  split at h
  · cases h
    exact fun c hc => absurd hc List.not_mem_nil
  · rename_i place vacant
    cases h
    intro c hc
    rw [List.mem_singleton.1 hc]
    exact .of_move (.give trivial vacant)

lemma kept_release {plan : Plan Section Unit} (h : s.release id = .ok plan) :
    ∀ c ∈ plan.changes, s.Kept c.result := by
  simp only [release, bind_eq_ok, pure_eq_ok] at h
  obtain ⟨-, -, rfl⟩ := h
  intro c hc
  rw [List.mem_singleton.1 hc]
  exact .of_move (.vacate id)

lemma kept_transfer {plan : Plan (Section × Section) Bool} (h : s.transfer t id = .ok plan) :
    ∀ c ∈ plan.changes, s.Kept c.result.1 ∧ t.Kept c.result.2 := by
  simp only [transfer, bind_eq_ok] at h
  obtain ⟨-, -, -, -, h⟩ := h
  split at h
  · cases h
    exact fun c hc => absurd hc List.not_mem_nil
  · rename_i place vacant
    cases h
    intro c hc
    rw [List.mem_singleton.1 hc]
    exact ⟨.of_move (.vacate id),
      .of_move (.give trivial vacant)⟩

/-- Nobody is transferred from a section to itself. -/
lemma transfer_self (s : Section) (id : StudentId) {plan : Plan (Section × Section) Bool} :
    s.transfer s id ≠ .ok plan := by
  intro h
  simp only [transfer, bind_eq_ok, require_eq_ok] at h
  obtain ⟨-, hgroups, -⟩ := h
  simp at hgroups

/-- Also a section that has grown and not let the student in is within its bounds. -/
lemma kept_grantByForce {plan : Plan Section Unit} (h : s.grantByForce id = .ok plan) :
    ∀ c ∈ plan.changes, s.Kept c.result := by
  unfold grantByForce at h
  split at h
  · rename_i hroom
    cases h
    intro c hc
    rw [List.mem_singleton.1 hc]
    have hroom' : s.seats.registered.size < s.seats.capacity.toNat := by
      simpa [Seats.isFull] using hroom
    have vacant : s.seats.nextPlace = some .registered :=
      Seats.nextPlace_eq_some_iff.2 (.inl ⟨rfl, hroom'⟩)
    exact .of_move (.give trivial vacant)
  · rename_i hfull
    split at h
    · cases h
    · rename_i hnext
      have full : s.seats.isFull = true := by simpa using hfull
      have fits : s.seats.capacity.toNat + 1 < UInt64.size := by
        have := s.seats.capacity.toNat_lt
        simp only [UInt64.size] at hnext ⊢
        omega
      cases h
      intro c hc
      rcases List.mem_cons.1 hc with rfl | hc
      · exact ⟨fun hs => hs.raised fits, rfl⟩
      · rw [List.mem_singleton.1 hc]
        exact .of_move (.raiseAndGive trivial full fits)

lemma kept_resize {capacity : UInt64} {plan : Plan Section (List StudentId)}
    (h : s.resize capacity = .ok plan) : ∀ c ∈ plan.changes, s.Kept c.result := by
  simp only [resize, bind_eq_ok, require_eq_ok, decide_eq_true_eq] at h
  obtain ⟨-, enough, h⟩ := h
  split at h
  · cases h
    exact fun c hc => absurd hc List.not_mem_nil
  · cases h
    intro c hc
    rw [List.mem_singleton.1 hc]
    exact .of_move (.resize enough)

end Section

/-! ## All sections -/

namespace Registry

/-- Every section that was in `r₀` is still there, within its bounds and with its reserve. -/
def KeepsBounds (r₀ r : Registry) : Prop :=
  ∀ ref s₀, r₀.catalog.get? ref = some s₀ → ∃ s, r.catalog.get? ref = some s ∧
    s.seats.Bounded ∧ s.seats.reserve = s₀.seats.reserve

variable {r₀ r : Registry} {ref : Catalog.Ref} {s s' : Section}

lemma KeepsBounds.putSection (h : r₀.KeepsBounds r) (found : r.catalog.get? ref = some s)
    (kept : s.Kept s') : r₀.KeepsBounds (r.putSection ref s') := by
  intro ref' s₀ hs₀
  obtain ⟨t, ht, hbounded, hreserve⟩ := h ref' s₀ hs₀
  have hget : (r.putSection ref s').catalog.get? ref' =
      if ref' = ref then some s' else r.catalog.get? ref' := Catalog.get?_set found s' ref'
  by_cases href : ref' = ref
  · subst href
    rw [found, Option.some.injEq] at ht
    subst ht
    rw [if_pos rfl] at hget
    exact ⟨s', hget, kept.bounded hbounded, kept.reserve_eq.trans hreserve⟩
  · rw [if_neg href, ht] at hget
    exact ⟨t, hget, hbounded, hreserve⟩

end Registry

namespace Office

variable {r₀ : Registry} {o : Office} {ref ref' : Catalog.Ref}

lemma after_atSection_keeps {α : Type} (h : r₀.KeepsBounds o.registry) (cancelled : Bool)
    (move : Section → Check (Plan Section α))
    (kept : ∀ {s plan}, move s = .ok plan → ∀ c ∈ plan.changes, s.Kept c.result) :
    r₀.KeepsBounds (direct.after o (o.atSection cancelled ref move)).registry := by
  unfold atSection
  cases found : o.registry.catalog.get? ref with
  | none => exact h
  | some s =>
    refine execute_keeps (Q := r₀.KeepsBounds) cancelled o.outbox h fun plan hplan c hc => ?_
    obtain ⟨inner, hinner, rfl⟩ := map_eq_ok.1 hplan
    obtain ⟨c', hc', rfl⟩ := List.mem_map.1 hc
    exact h.putSection found (kept hinner c' hc')

lemma after_atSections_keeps {α : Type} (h : r₀.KeepsBounds o.registry) (cancelled : Bool)
    (move : Section → Section → Check (Plan (Section × Section) α))
    (kept : ∀ {s t plan}, move s t = .ok plan →
      ∀ c ∈ plan.changes, s.Kept c.result.1 ∧ t.Kept c.result.2)
    (apart : ∀ s, ∀ plan, move s s ≠ .ok plan) :
    r₀.KeepsBounds (direct.after o (o.atSections cancelled ref ref' move)).registry := by
  unfold atSections
  cases found : o.registry.catalog.get? ref with
  | none => exact h
  | some s =>
    cases found' : o.registry.catalog.get? ref' with
    | none => exact h
    | some t =>
      refine execute_keeps (Q := r₀.KeepsBounds) cancelled o.outbox h fun plan hplan c hc => ?_
      obtain ⟨inner, hinner, rfl⟩ := map_eq_ok.1 hplan
      obtain ⟨c', hc', rfl⟩ := List.mem_map.1 hc
      obtain ⟨kept₁, kept₂⟩ := kept hinner c' hc'
      -- the two sections are at different references, so the first change leaves the second alone
      have hne : ref' ≠ ref := by
        rintro rfl
        rw [found, Option.some.injEq] at found'
        exact apart s inner (found' ▸ hinner)
      have hsecond : (o.registry.putSection ref c'.result.1).catalog.get? ref' = some t := by
        refine (Catalog.get?_set found _ ref').trans ?_
        rw [if_neg hne, found']
      exact (h.putSection found kept₁).putSection hsecond kept₂

/-- One call keeps every section within its bounds. -/
lemma direct_keeps (h : r₀.KeepsBounds o.registry) (call : SectionCall) :
    r₀.KeepsBounds (o.direct call).registry := by
  cases call with
  | seat ref id =>
    rw [direct]
    split
    · exact h
    · rename_i s found
      exact h.putSection found (s.kept_seat id)
  | grant cancelled ref id => exact after_atSection_keeps h cancelled _ Section.kept_grant
  | release cancelled ref id => exact after_atSection_keeps h cancelled _ Section.kept_release
  | transfer cancelled source destination id =>
    exact after_atSections_keeps h cancelled _ Section.kept_transfer fun s plan => s.transfer_self id
  | grantByForce cancelled ref id =>
    exact after_atSection_keeps h cancelled _ Section.kept_grantByForce
  | resize cancelled ref capacity => exact after_atSection_keeps h cancelled _ Section.kept_resize
  | outbox outbox => exact h

/-- **Whatever is asked of new sections directly, each stays within its bounds and keeps its
reserve.**  The sections are any, the calls are any list of calls of them for any students, and the
outbox may answer each offer in any way. -/
theorem direct_bounded (sections : List (Snapshot.StoredSection × WeeklyHours))
    (departments : OrderedMap DepartmentId String) (students : OrderedMap StudentId Student)
    (clock : Instant) (outbox : Outbox) (calls : List SectionCall) :
    let opened := Catalog.ofSections (sections.map fun p => p.1.vacant p.2)
    let o := calls.foldl direct ⟨⟨departments, opened, students⟩, clock, outbox⟩
    ∀ ref s₀, opened.get? ref = some s₀ → ∃ s, o.registry.catalog.get? ref = some s ∧
      s.seats.registered.size ≤ s.seats.capacity.toNat ∧
      s.seats.waitlist.length ≤ s.seats.reserve.toNat ∧
      s.seats.reserve = s₀.seats.reserve := by
  intro opened o ref s₀ hs₀
  let start : Office := ⟨⟨departments, opened, students⟩, clock, outbox⟩
  have hstart : start.registry.KeepsBounds start.registry := by
    intro ref s hs
    obtain ⟨⟨stored, hours⟩, -, rfl⟩ := List.mem_map.1 (Catalog.mem_of_get?_ofSections hs)
    exact ⟨_, hs, Seats.bounded_vacant _ _, rfl⟩
  have hrun : ∀ {o : Office}, start.registry.KeepsBounds o.registry →
      start.registry.KeepsBounds (calls.foldl direct o).registry := by
    induction calls with
    | nil => exact fun h => h
    | cons call rest ih => exact fun h => ih (direct_keeps h call)
  obtain ⟨s, hs, hbounded, hreserve⟩ := hrun hstart ref s₀ hs₀
  exact ⟨s, hs, hbounded.registered_le, hbounded.waitlist_le, hreserve⟩

/-- Student 2 waits, is let in by force as well, and then gives one of two places back. -/
theorem direct_bounded_small :
    let sections : List (Snapshot.StoredSection × WeeklyHours) :=
      [(⟨⟨⟨100⟩, ⟨1⟩⟩, ⟨7⟩, "staff", 3, 1, 1, none, none, .unlocked, []⟩, .unscheduled)]
    let ref : Catalog.Ref := ⟨⟨100⟩, 0⟩
    let calls : List SectionCall := [.seat ref ⟨1⟩, .seat ref ⟨2⟩, .grantByForce false ref ⟨2⟩,
      .release false ref ⟨2⟩]
    ∃ s₀, (Catalog.ofSections (sections.map fun p => p.1.vacant p.2)).get? ref = some s₀ ∧
      ∃ s, (calls.foldl direct ⟨⟨.empty, Catalog.ofSections (sections.map fun p => p.1.vacant p.2),
          .empty⟩, .epoch, .script .accepting⟩).registry.catalog.get? ref = some s ∧
        s.seats.registered.size ≤ s.seats.capacity.toNat ∧
        s.seats.waitlist.length ≤ s.seats.reserve.toNat ∧ s.seats.reserve = s₀.seats.reserve := by
  intro sections ref calls
  exact ⟨_, rfl, direct_bounded sections .empty .empty .epoch (.script .accepting) calls ref _ rfl⟩

end Office

end CourseRegistration
