import CourseRegistration.Proofs.Atomicity
import CourseRegistration.Proofs.Replay
import Mathlib.Data.List.Induction

/-!
# Delivery through a channel

An office whose outbox is a channel, together with the receiver of the channel, is an `Exchange`.
The channel holds few records, so a call may have to wait, before its first record or between two,
and meanwhile the receiver gets some, or leaves.  Carrying a call out is therefore taken apart here
into the offers of its single records (`serve_eq_run` puts it together again), and everything else
may happen between two offers.

While the receiver is there, what it has got and what is queued is exactly what the channel has
accepted, in order, and no more is queued than the channel has room for.  Replaying what the
receiver has got leads to the book of a registry that the office has really had: the records that
the channel accepts are those of the registry at every moment (`Registry.Told`), and every list of
records that the receiver can have got was, at some moment, all that had been accepted
(`accepted_settled`).  At that moment no call was half done, unless staff were enrolling a student
in a full section.

The main statement is `channel_delivers`.
-/

namespace CourseRegistration

open Journal

/-! ## Channels -/

namespace Journal.Channel

variable {c : Channel} {cancelled : Bool} {x : Record} {n : Nat} {accepted received : List Record}

/-- A record is taken if there is room for it, and otherwise nothing happens to the channel. -/
lemma offer_cases (cancelled : Bool) (x : Record) (c : Channel) :
    (c.offer cancelled x = (.taken, { c with queue := c.queue ++ [x] }) ∧ cancelled = false ∧
      c.isOpen = true ∧ c.queue.length < c.bound) ∨
    (∃ why, c.offer cancelled x = (.refused why, c)) ∨ c.offer cancelled x = (.pending, c) := by
  unfold offer
  split_ifs with hcancelled hclosed hfull
  · exact .inr (.inl ⟨_, rfl⟩)
  · exact .inr (.inl ⟨_, rfl⟩)
  · exact .inr (.inr rfl)
  · exact .inl ⟨rfl, by simpa using hcancelled, by simpa using hclosed, Nat.lt_of_not_le hfull⟩

/-- The channel has `n` places, and what has been accepted has been received or is queued, unless it
was queued when the receiver left. -/
structure Carries (n : Nat) (accepted received : List Record) (c : Channel) : Prop where
  bound_eq : c.bound = n
  within : c.queue.length ≤ n
  in_order : received ++ c.queue <+: accepted
  complete : c.isOpen = true → received ++ c.queue = accepted

lemma carries_ofSize (h : ofSize? n = some c) : c.Carries (max n 1) [] [] := by
  unfold ofSize? at h
  split_ifs at h
  cases h
  exact ⟨rfl, Nat.zero_le _, List.nil_prefix, fun _ => rfl⟩

lemma Carries.push (h : c.Carries n accepted received) (hopen : c.isOpen = true)
    (room : c.queue.length < c.bound) (x : Record) :
    Carries n (accepted ++ [x]) received { c with queue := c.queue ++ [x] } := by
  have hall : received ++ (c.queue ++ [x]) = accepted ++ [x] := by
    rw [← List.append_assoc, h.complete hopen]
  refine ⟨h.bound_eq, ?_, ?_, fun _ => hall⟩
  · rw [h.bound_eq] at room
    show (c.queue ++ [x]).length ≤ n
    rw [List.length_append, List.length_singleton]
    exact room
  · exact ⟨[], (List.append_nil _).trans hall⟩

lemma Carries.receive (h : c.Carries n accepted received) (m : Nat) :
    (c.receive m).2.Carries n accepted (received ++ (c.receive m).1) := by
  have hall : received ++ c.queue.take m ++ c.queue.drop m = received ++ c.queue := by
    rw [List.append_assoc, List.take_append_drop]
  refine ⟨h.bound_eq, ?_, ?_, fun hopen => hall.trans (h.complete hopen)⟩
  · show (c.queue.drop m).length ≤ n
    rw [List.length_drop]
    exact Nat.le_trans (Nat.sub_le _ _) h.within
  · show received ++ c.queue.take m ++ c.queue.drop m <+: accepted
    rw [hall]
    exact h.in_order

lemma Carries.close (h : c.Carries n accepted received) : c.close.Carries n accepted received := by
  refine ⟨h.bound_eq, Nat.zero_le _, ?_, nofun⟩
  show received ++ [] <+: accepted
  rw [List.append_nil]
  exact (List.prefix_append _ _).trans h.in_order

end Journal.Channel

/-! ## The exchange -/

/-- A request that is being carried out. -/
structure Errand where
  cancelled : Bool
  request : Request
  /-- The changes that have been made. -/
  made : List (Change Registry)
  /-- The changes that are still to be made. -/
  left : List (Change Registry)

/-- The request, if it is not over. -/
def Errand.unlessDone (e : Errand) : Option Errand :=
  if e.left = [] then none else some e

/-- What there is to do for a call, if anything. -/
def Office.errand? (o : Office) : Call → Option Errand
  | .query _ => none
  | .request cancelled request =>
    match o.decide request with
    | .error _ => none
    | .ok plan => Errand.unlessDone ⟨cancelled, request, [], plan.changes⟩

/-- An office, and what comes of its records. -/
structure Exchange where
  office : Office
  /-- The request that waits for its next record to be taken. -/
  ongoing : Option Errand
  /-- The records that the outbox has taken, in order. -/
  accepted : List Record
  /-- The records that the receiver has got, in order. -/
  received : List Record

namespace Exchange

/-- The exchange of an office that has done nothing yet. -/
def opened (o : Office) : Exchange :=
  ⟨o, none, [], []⟩

/-- One thing that happens at an exchange. -/
inductive Act where
  /-- A call is made.  A request that was being carried out is given up for it. -/
  | call (call : Call)
  /-- The next record of the request that is being carried out is offered. -/
  | offer
  /-- The request that is being carried out is cancelled. -/
  | cancel
  /-- The request that is being carried out is given up. -/
  | giveUp
  /-- The receiver gets the oldest `n` records. -/
  | receive (n : Nat)
  /-- The receiver leaves. -/
  | close
  | clock (now : Instant)

/-- Whether the act is a call. -/
def Act.isCall : Act → Bool
  | call _ => true
  | _ => false

/-- Offers the next record, and makes its change if it is taken. -/
def offerNext (x : Exchange) : Exchange :=
  match x.ongoing with
  | none => x
  | some e =>
    match e.left with
    | [] => x
    | c :: rest =>
      match x.office.outbox.offer e.cancelled c.record with
      | (.taken, outbox) =>
        { x with
          office := { x.office with registry := c.result, outbox := outbox }
          ongoing := { e with made := e.made ++ [c], left := rest }.unlessDone
          accepted := x.accepted ++ [c.record] }
      | (.refused _, outbox) =>
        { x with office := { x.office with outbox := outbox }, ongoing := none }
      | (.pending, outbox) => { x with office := { x.office with outbox := outbox } }

/-- The exchange after an act. -/
def step (x : Exchange) : Act → Exchange
  | .call call => { x with ongoing := x.office.errand? call }
  | .offer => x.offerNext
  | .cancel => { x with ongoing := x.ongoing.map fun e => { e with cancelled := true } }
  | .giveUp => { x with ongoing := none }
  | .receive n =>
    let (records, outbox) := x.office.outbox.receive n
    { x with office := { x.office with outbox := outbox }, received := x.received ++ records }
  | .close => { x with office := { x.office with outbox := x.office.outbox.close } }
  | .clock now => { x with office := { x.office with clock := now } }

/-- The exchange after some acts. -/
def run (x : Exchange) (acts : List Act) : Exchange :=
  acts.foldl step x

end Exchange

/-- Staff are enrolling a student in a full section, which has grown, and the student is not yet
recorded. -/
def Errand.Halfway (e : Errand) : Prop :=
  ∃ id key, ∃ s : Section, e.request = .staffEnroll id key ∧
    e.made.map (·.record) = [s.record (.resize s.key (s.seats.capacity + 1) [])] ∧
    e.left.map (·.record) = [s.record (.enroll id s.key false)]

/-- No request is being carried out, or it is that of staff halfway through. -/
def Exchange.Settled (x : Exchange) : Prop :=
  x.ongoing = none ∨ ∃ e, x.ongoing = some e ∧ e.Halfway

/-! ## What the records tell -/

lemma Change.after_concat {σ : Type} (made : List (Change σ)) (c : Change σ) (s : σ) :
    Change.after (made ++ [c]) s = c.result := by
  induction made generalizing s with
  | nil => rfl
  | cons d rest ih => exact ih d.result

/-- The records lead from the book of one registry to that of the other. -/
structure Registry.Told (r₀ : Registry) (log : List Record) (r : Registry) : Prop where
  consistent : r.Consistent
  replayed : r₀.book.replayAll? (log.map (·.entry)) = some r.book

lemma Registry.Told.effect {r₀ r r' : Registry} {log records : List Record} {now : Instant}
    {request : Request} (h : r₀.Told log r) (effect : r.Effect now request records r') :
    r₀.Told (log ++ records) r' := by
  refine ⟨effect.consistent h.consistent, ?_⟩
  have hlog := h.replayed
  have hrecords := effect.replay h.consistent
  unfold Book.replayAll? at hlog hrecords ⊢
  rw [List.map_append, List.foldlM_append, hlog]
  exact hrecords

lemma Registry.Planned.length_le {r : Registry} {now : Instant} {request : Request}
    {changes : List (Change Registry)} (h : r.Planned now request changes) :
    changes.length ≤ 2 := by
  cases h <;> simp

lemma Errand.unlessDone_eq_some {e e' : Errand} :
    e.unlessDone = some e' ↔ e.left ≠ [] ∧ e = e' := by
  unfold Errand.unlessDone
  split_ifs with hleft <;> simp [hleft]

lemma Office.errand?_eq_some {o : Office} {call : Call} {e : Errand} (h : o.errand? call = some e) :
    ∃ cancelled request plan, call = .request cancelled request ∧ o.decide request = .ok plan ∧
      e = ⟨cancelled, request, [], plan.changes⟩ ∧ plan.changes ≠ [] := by
  cases call with
  | query q => cases h
  | request cancelled request =>
    unfold Office.errand? at h
    cases hdecide : o.decide request with
    | error halt => simp [hdecide] at h
    | ok plan =>
      simp only [hdecide, Errand.unlessDone_eq_some] at h
      exact ⟨cancelled, request, plan, rfl, hdecide, h.2.symm, h.1⟩

namespace Errand

/-- The request has been planned, and its first changes have led to the registry `r` and are the
last in the log. -/
structure Underway (e : Errand) (r₀ r : Registry) (log : List Record) : Prop where
  left_ne : e.left ≠ []
  origin : ∃ now base before, r₀.Told before base ∧
    base.Planned now e.request (e.made ++ e.left) ∧ r = Change.after e.made base ∧
    log = before ++ e.made.map (·.record)

variable {e : Errand} {r₀ r : Registry} {log : List Record} {c : Change Registry}
  {rest : List (Change Registry)}

/-- A request that is over after some of its changes is that of staff for a full section. -/
lemma Underway.halfway (h : e.Underway r₀ r log) (hmade : e.made ≠ []) : e.Halfway := by
  obtain ⟨now, base, before, -, planned, -⟩ := h.origin
  obtain ⟨id, key, ref, s, hrequest, -, hfirst, hsecond, -⟩ :=
    (planned.unfinished h.left_ne).resolve_left hmade
  have hlength := planned.length_le
  have hone := congrArg List.length hfirst
  rw [List.length_append] at hlength
  rw [List.length_map, List.length_singleton] at hone
  rw [List.take_of_length_le (by omega)] at hsecond
  exact ⟨id, key, s, hrequest, hfirst, hsecond⟩

/-- The next change of a request is told by its record. -/
lemma Underway.told (h : e.Underway r₀ r log) (hleft : e.left = c :: rest) :
    r₀.Told (log ++ [c.record]) c.result := by
  obtain ⟨now, base, before, told, planned, -, rfl⟩ := h.origin
  rw [hleft, List.append_cons] at planned
  have hnext := told.effect planned.effect
  rwa [Change.after_concat, List.map_append, ← List.append_assoc] at hnext

/-- The request goes on after its next change. -/
lemma Underway.next (h : e.Underway r₀ r log) (hleft : e.left = c :: rest) (hrest : rest ≠ []) :
    Underway { e with made := e.made ++ [c], left := rest } r₀ c.result (log ++ [c.record]) := by
  obtain ⟨now, base, before, told, planned, -, rfl⟩ := h.origin
  rw [hleft, List.append_cons] at planned
  refine ⟨hrest, now, base, before, told, planned, (Change.after_concat ..).symm, ?_⟩
  rw [List.map_append, List.append_assoc]
  rfl

end Errand

/-! ## Offers -/

namespace Exchange

variable {r₀ : Registry} {x : Exchange} {c : Channel} {e : Errand} {change : Change Registry}
  {rest : List (Change Registry)}

lemma offerNext_of_idle (h : ∀ e, x.ongoing = some e → e.left = []) : x.offerNext = x := by
  unfold offerNext
  cases hongoing : x.ongoing with
  | none => rfl
  | some e => simp [h e hongoing]

/-- An offer to a channel is taken, or it is refused and the request is over, or nothing happens. -/
lemma offerNext_channel (hchannel : x.office.outbox = .channel c) (hongoing : x.ongoing = some e)
    (hleft : e.left = change :: rest) :
    ((e.cancelled = false ∧ c.isOpen = true ∧ c.queue.length < c.bound) ∧
      c.offer e.cancelled change.record =
        (.taken, { c with queue := c.queue ++ [change.record] }) ∧
      x.offerNext =
        ⟨⟨change.result, x.office.clock, .channel { c with queue := c.queue ++ [change.record] }⟩,
          { e with made := e.made ++ [change], left := rest }.unlessDone,
          x.accepted ++ [change.record], x.received⟩) ∨
    (∃ why, c.offer e.cancelled change.record = (.refused why, c) ∧
      x.offerNext = { x with ongoing := none }) ∨
    (c.offer e.cancelled change.record = (.pending, c) ∧ x.offerNext = x) := by
  have hsame : { x.office with outbox := .channel c } = x.office := by rw [← hchannel]
  unfold offerNext
  rcases c.offer_cases e.cancelled change.record with
    ⟨hoffer, hfree⟩ | ⟨why, hoffer⟩ | hoffer
  · refine .inl ⟨hfree, hoffer, ?_⟩
    simp [hongoing, hleft, hchannel, Outbox.offer, hoffer]
  · refine .inr (.inl ⟨why, hoffer, ?_⟩)
    simp [hongoing, hleft, hchannel, Outbox.offer, hoffer, hsame]
  · refine .inr (.inr ⟨hoffer, ?_⟩)
    simp only [hongoing, hleft, hchannel, Outbox.offer, hoffer, hsame]
    rw [← hongoing]

/-- An offer to a channel changes nothing, or ends the request, or the next change is made. -/
lemma offerNext_cases (hchannel : x.office.outbox = .channel c) :
    x.offerNext = x ∨ x.offerNext = { x with ongoing := none } ∨
    ∃ e change rest, x.ongoing = some e ∧ e.left = change :: rest ∧ e.cancelled = false ∧
      c.isOpen = true ∧ c.queue.length < c.bound ∧
      x.offerNext =
        ⟨⟨change.result, x.office.clock, .channel { c with queue := c.queue ++ [change.record] }⟩,
          { e with made := e.made ++ [change], left := rest }.unlessDone,
          x.accepted ++ [change.record], x.received⟩ := by
  cases hongoing : x.ongoing with
  | none => exact .inl (offerNext_of_idle (by simp [hongoing]))
  | some e =>
    cases hleft : e.left with
    | nil => exact .inl (offerNext_of_idle (by simp [hongoing, hleft]))
    | cons change rest =>
      rcases offerNext_channel hchannel hongoing hleft with
        ⟨⟨hcancelled, hopen, room⟩, -, hnext⟩ | ⟨why, -, hnext⟩ | ⟨-, hnext⟩
      · exact .inr (.inr ⟨e, change, rest, rfl, hleft, hcancelled, hopen, room, hnext⟩)
      · exact .inr (.inl hnext)
      · exact .inl hnext

/-! ## Channels at an exchange -/

/-- The outbox is a channel with `n` places, and has delivered what the receiver has got. -/
def Delivers (n : Nat) (x : Exchange) : Prop :=
  ∃ c, x.office.outbox = .channel c ∧ c.Carries n x.accepted x.received

variable {n : Nat}

lemma Delivers.offerNext (h : x.Delivers n) : x.offerNext.Delivers n := by
  obtain ⟨c, hchannel, carries⟩ := h
  rcases offerNext_cases hchannel with
    hsame | hover | ⟨e, change, rest, he, hleft, -, hopen, room, hnext⟩
  · rw [hsame]
    exact ⟨c, hchannel, carries⟩
  · rw [hover]
    exact ⟨c, hchannel, carries⟩
  · rw [hnext]
    exact ⟨_, rfl, carries.push hopen room change.record⟩

/-- **Every act keeps the records in order.** -/
theorem Delivers.step (h : x.Delivers n) (a : Act) : (x.step a).Delivers n := by
  obtain ⟨c, hchannel, carries⟩ := h
  cases a with
  | offer => exact Delivers.offerNext ⟨c, hchannel, carries⟩
  | receive m =>
    refine ⟨(c.receive m).2, ?_, ?_⟩
    · simp [Exchange.step, hchannel, Outbox.receive]
    · simpa [Exchange.step, hchannel, Outbox.receive] using carries.receive m
  | close =>
    refine ⟨c.close, ?_, carries.close⟩
    simp [Exchange.step, hchannel, Outbox.close]
  | call => exact ⟨c, hchannel, carries⟩
  | cancel => exact ⟨c, hchannel, carries⟩
  | giveUp => exact ⟨c, hchannel, carries⟩
  | clock => exact ⟨c, hchannel, carries⟩

/-! ## What the records tell at every moment -/

/-- At every moment the accepted records tell the registry, and a request that is being carried out
has been planned. -/
structure Faithful (r₀ : Registry) (x : Exchange) : Prop where
  told : r₀.Told x.accepted x.office.registry
  underway : ∀ e, x.ongoing = some e → e.Underway r₀ x.office.registry x.accepted

lemma Faithful.call (h : x.Faithful r₀) (call : Call) : (x.step (.call call)).Faithful r₀ := by
  refine ⟨h.told, fun e he => ?_⟩
  obtain ⟨cancelled, request, plan, -, hdecide, rfl, hleft⟩ := Office.errand?_eq_some he
  refine ⟨hleft, x.office.clock, x.office.registry, x.accepted, h.told, ?_, rfl, ?_⟩
  · exact Office.decide_planned hdecide
  · exact (List.append_nil _).symm

lemma Faithful.offerNext (h : x.Faithful r₀) (hchannel : x.office.outbox = .channel c) :
    x.offerNext.Faithful r₀ := by
  rcases offerNext_cases hchannel with
    hsame | hover | ⟨e, change, rest, he, hleft, -, -, -, hnext⟩
  · rw [hsame]
    exact h
  · rw [hover]
    exact ⟨h.told, nofun⟩
  · have hunderway := h.underway e he
    rw [hnext]
    refine ⟨hunderway.told hleft, fun e' he' => ?_⟩
    obtain ⟨hrest, rfl⟩ := Errand.unlessDone_eq_some.1 he'
    exact hunderway.next hleft hrest

/-- **Every act keeps the records in step with the registry.** -/
theorem Faithful.step (h : x.Faithful r₀) (hchannel : x.office.outbox = .channel c) (a : Act) :
    (x.step a).Faithful r₀ := by
  cases a with
  | call call => exact h.call call
  | offer => exact h.offerNext hchannel
  | cancel =>
    refine ⟨h.told, fun e he => ?_⟩
    obtain ⟨e', he', rfl⟩ := Option.map_eq_some_iff.1 he
    exact ⟨(h.underway e' he').left_ne, (h.underway e' he').origin⟩
  | giveUp => exact ⟨h.told, nofun⟩
  | receive n => exact ⟨h.told, h.underway⟩
  | close => exact ⟨h.told, h.underway⟩
  | clock now => exact ⟨h.told, h.underway⟩

/-- An act leaves the accepted records as they are, or one more is accepted and then nothing is half
done, unless by staff. -/
lemma step_accepted (h : x.Faithful r₀) (hchannel : x.office.outbox = .channel c) (a : Act) :
    (x.step a).accepted = x.accepted ∨
      ∃ record, (x.step a).accepted = x.accepted ++ [record] ∧ (x.step a).Settled := by
  cases a with
  | offer =>
    rcases offerNext_cases hchannel with
      hsame | hover | ⟨e, change, rest, he, hleft, -, -, -, hnext⟩
    · left
      exact congrArg accepted hsame
    · left
      show x.offerNext.accepted = x.accepted
      rw [hover]
    · refine .inr ⟨change.record, congrArg accepted hnext, ?_⟩
      have hongoing := congrArg ongoing hnext
      by_cases hrest : rest = []
      · exact .inl (hongoing.trans (if_pos hrest))
      · refine .inr ⟨_, hongoing.trans (if_neg hrest), ?_⟩
        refine ((h.underway e he).next hleft hrest).halfway ?_
        exact List.append_ne_nil_of_right_ne_nil _ (List.cons_ne_nil change [])
  | _ => exact .inl rfl

/-! ## Runs -/

lemma run_concat (x : Exchange) (acts : List Act) (a : Act) :
    x.run (acts ++ [a]) = (x.run acts).step a := by
  rw [run, List.foldl_append]
  rfl

/-- Whatever every act keeps, a run keeps. -/
lemma run_keeps {P : Exchange → Prop} (step : ∀ {x} a, P x → P (x.step a)) (h : P x)
    (acts : List Act) : P (x.run acts) := by
  induction acts generalizing x with
  | nil => exact h
  | cons a rest ih => exact ih (step a h)

lemma run_delivers (h : x.Delivers n) (acts : List Act) : (x.run acts).Delivers n :=
  run_keeps (fun a h => h.step a) h acts

lemma run_faithful (h : x.Faithful r₀) (hdelivers : x.Delivers n) (acts : List Act) :
    (x.run acts).Faithful r₀ := by
  refine (run_keeps (P := fun x => x.Faithful r₀ ∧ x.Delivers n) ?_ ⟨h, hdelivers⟩ acts).1
  rintro x a ⟨h, hdelivers⟩
  obtain ⟨c, hchannel, carries⟩ := hdelivers
  exact ⟨h.step hchannel a, Delivers.step ⟨c, hchannel, carries⟩ a⟩

/-- **Every list of records that begins what has been accepted was all that had been accepted, at
some moment when nothing was half done**, unless by staff. -/
theorem accepted_settled (h : x.Faithful r₀) (hdelivers : x.Delivers n) (start : x.ongoing = none)
    (hempty : x.accepted = []) (acts : List Act) {log : List Record}
    (hlog : log <+: (x.run acts).accepted) :
    ∃ earlier, earlier <+: acts ∧ (x.run earlier).accepted = log ∧ (x.run earlier).Settled := by
  induction acts using List.reverseRecOn generalizing log with
  | nil =>
    have hnil : log = [] := List.prefix_nil.1 (hempty ▸ hlog)
    exact ⟨[], List.prefix_rfl, hempty.trans hnil.symm, .inl start⟩
  | append_singleton acts a ih =>
    have hearlier : ∀ {log}, log <+: (x.run acts).accepted → ∃ earlier, earlier <+: acts ++ [a] ∧
        (x.run earlier).accepted = log ∧ (x.run earlier).Settled := by
      intro log hlog
      obtain ⟨earlier, hprefix, hfound⟩ := ih hlog
      exact ⟨earlier, hprefix.trans (List.prefix_append _ _), hfound⟩
    obtain ⟨c, hchannel, -⟩ := run_delivers hdelivers acts
    rw [run_concat] at hlog
    rcases step_accepted (run_faithful h hdelivers acts) hchannel a with
      hsame | ⟨record, hmore, hsettled⟩
    · exact hearlier (hsame ▸ hlog)
    · rw [hmore, List.prefix_concat_iff] at hlog
      rcases hlog with rfl | hlog
      · exact ⟨acts ++ [a], List.prefix_rfl, by rw [run_concat, hmore], by rwa [run_concat]⟩
      · exact hearlier hlog

/-! ## Calls for which nothing is recorded -/

/-- Nothing can be recorded for the call that is being carried out, if there is one: it was
cancelled, or nobody receives. -/
def Shut (x : Exchange) : Prop :=
  ∃ c, x.office.outbox = .channel c ∧
    (c.isOpen = false ∨ ∀ e, x.ongoing = some e → e.cancelled = true)

/-- Nothing has been changed or recorded. -/
def Unmoved (x x' : Exchange) : Prop :=
  x'.office.registry = x.office.registry ∧ x'.accepted = x.accepted

lemma Shut.call {call : Call} (hchannel : x.office.outbox = .channel c)
    (h : call.isCancelled = true ∨ c.isOpen = false) : (x.step (.call call)).Shut := by
  refine ⟨c, hchannel, ?_⟩
  rcases h with hcancelled | hclosed
  · right
    intro e he
    obtain ⟨cancelled, request, plan, rfl, -, rfl, -⟩ := Office.errand?_eq_some he
    exact hcancelled
  · exact .inl hclosed

/-- Until the next call nothing changes. -/
lemma Shut.step (h : x.Shut) {a : Act} (ha : a.isCall = false) :
    (x.step a).Shut ∧ x.Unmoved (x.step a) := by
  obtain ⟨c, hchannel, hshut⟩ := h
  cases a with
  | call => cases ha
  | offer =>
    rcases offerNext_cases hchannel with
      hsame | hover | ⟨e, change, rest, he, -, hcancelled, hopen, -⟩
    · show x.offerNext.Shut ∧ x.Unmoved x.offerNext
      rw [hsame]
      exact ⟨⟨c, hchannel, hshut⟩, rfl, rfl⟩
    · show x.offerNext.Shut ∧ x.Unmoved x.offerNext
      rw [hover]
      exact ⟨⟨c, hchannel, .inr nofun⟩, rfl, rfl⟩
    · rcases hshut with hclosed | hall
      · rw [hclosed] at hopen
        cases hopen
      · rw [hall e he] at hcancelled
        cases hcancelled
  | cancel =>
    refine ⟨⟨c, hchannel, .inr fun e he => ?_⟩, rfl, rfl⟩
    obtain ⟨e', -, rfl⟩ := Option.map_eq_some_iff.1 he
    rfl
  | giveUp => exact ⟨⟨c, hchannel, .inr nofun⟩, rfl, rfl⟩
  | receive m =>
    refine ⟨⟨(c.receive m).2, ?_, hshut⟩, rfl, rfl⟩
    simp [Exchange.step, hchannel, Outbox.receive]
  | close =>
    refine ⟨⟨c.close, ?_, .inl rfl⟩, rfl, rfl⟩
    simp [Exchange.step, hchannel, Outbox.close]
  | clock now => exact ⟨⟨c, hchannel, hshut⟩, rfl, rfl⟩

lemma Shut.run (h : x.Shut) {acts : List Act} (hacts : ∀ a ∈ acts, a.isCall = false) :
    x.Unmoved (x.run acts) := by
  induction acts generalizing x with
  | nil => exact ⟨rfl, rfl⟩
  | cons a rest ih =>
    obtain ⟨hnext, hregistry, haccepted⟩ := h.step (hacts a List.mem_cons_self)
    obtain ⟨hregistry', haccepted'⟩ := ih hnext fun a ha => hacts a (List.mem_cons_of_mem _ ha)
    exact ⟨hregistry'.trans hregistry, haccepted'.trans haccepted⟩

/-! ## Calls that are served in one go -/

lemma run_offers_of_same (h : x.offerNext = x) (k : Nat) :
    x.run (List.replicate k .offer) = x := by
  induction k with
  | zero => rfl
  | succ k ih =>
    rw [List.replicate_succ]
    show x.offerNext.run _ = x
    rw [h, ih]

/-- Enough offers in a row carry a request out as far as that can be done at once. -/
lemma run_offers (hchannel : x.office.outbox = .channel c) (hongoing : x.ongoing = e.unlessDone)
    {k : Nat} (hk : e.left.length ≤ k) :
    let p := carryOut e.cancelled e.left x.office.registry x.office.outbox
    (x.run (List.replicate k .offer)).office =
      { x.office with registry := p.state, outbox := p.outbox } ∧
    (x.run (List.replicate k .offer)).accepted = x.accepted ++ p.taken := by
  generalize hleft : e.left = changes at hk
  induction changes generalizing x c e k with
  | nil =>
    have hnone : x.ongoing = none := hongoing.trans (if_pos hleft)
    rw [run_offers_of_same (offerNext_of_idle (by simp [hnone]))]
    exact ⟨rfl, (List.append_nil _).symm⟩
  | cons change rest ih =>
    obtain ⟨k, rfl⟩ : ∃ j, k = j + 1 := Nat.exists_eq_add_one.2 (Nat.zero_lt_of_lt hk)
    have hsome : x.ongoing = some e := by
      rw [hongoing, Errand.unlessDone, if_neg]
      rw [hleft]
      exact List.cons_ne_nil change rest
    rw [List.replicate_succ]
    show (x.offerNext.run _).office = _ ∧ (x.offerNext.run _).accepted = _
    rcases offerNext_channel hchannel hsome hleft with
      ⟨-, hoffer, hnext⟩ | ⟨why, hoffer, hnext⟩ | ⟨hoffer, hnext⟩
    · obtain ⟨hoffice, haccepted⟩ := ih (x := x.offerNext) (by rw [hnext]) (by rw [hnext])
        rfl (Nat.le_of_succ_le_succ hk)
      rw [hoffice, haccepted, hchannel]
      simp only [carryOut, Outbox.offer, hoffer]
      rw [hnext]
      exact ⟨rfl, List.append_assoc ..⟩
    · have hover : ({ x with ongoing := none } : Exchange).offerNext = { x with ongoing := none } :=
        offerNext_of_idle (by simp)
      rw [hnext, run_offers_of_same hover, hchannel]
      simp only [carryOut, Outbox.offer, hoffer]
      rw [← hchannel]
      exact ⟨rfl, (List.append_nil _).symm⟩
    · rw [hnext, run_offers_of_same hnext, hchannel]
      simp only [carryOut, Outbox.offer, hoffer]
      rw [← hchannel]
      exact ⟨rfl, (List.append_nil _).symm⟩

/-- **Serving a call in one go is deciding it, offering its records, and giving it up if it still
waits.**  No call has more than two records. -/
theorem serve_eq_run (hchannel : x.office.outbox = .channel c) (call : Call) :
    (x.run [.call call, .offer, .offer, .giveUp]).office = (x.office.serve call).2 ∧
    (x.run [.call call, .offer, .offer, .giveUp]).accepted =
      x.accepted ++ (x.office.serve call).1.taken := by
  let started := x.step (.call call)
  show (started.run (List.replicate 2 .offer)).office = _ ∧
    (started.run (List.replicate 2 .offer)).accepted = _
  have idle : started.ongoing = none → started.run (List.replicate 2 .offer) = started := by
    intro hnone
    exact run_offers_of_same (offerNext_of_idle (by simp [hnone])) 2
  cases call with
  | query q =>
    have hnone : (x.office.serve (.query q)).1.taken = [] := (x.office.ask_records q).1
    rw [idle rfl, hnone, List.append_nil]
    exact ⟨rfl, rfl⟩
  | request cancelled request =>
    show _ = (x.office.handle cancelled request).2 ∧
      _ = x.accepted ++ (x.office.handle cancelled request).1.taken
    cases hdecide : x.office.decide request with
    | error halt =>
      obtain ⟨hoffice, htaken, -⟩ := Office.handle_of_error cancelled hdecide
      rw [idle (by simp [started, Exchange.step, Office.errand?, hdecide]), hoffice, htaken,
        List.append_nil]
      exact ⟨rfl, rfl⟩
    | ok plan =>
      obtain ⟨hoffice, htaken, -⟩ := Office.handle_of_ok cancelled hdecide
      have hongoing :
          started.ongoing = Errand.unlessDone ⟨cancelled, request, [], plan.changes⟩ := by
        simp [started, Exchange.step, Office.errand?, hdecide]
      rw [hoffice, htaken]
      exact run_offers (x := started) hchannel hongoing (Office.decide_planned hdecide).length_le

/-! ## The main statement -/

lemma delivers_opened {n : Nat} {c : Channel} (size : Channel.ofSize? n = some c) (r : Registry)
    (clock : Instant) : (opened ⟨r, clock, .channel c⟩).Delivers (max n 1) :=
  ⟨c, rfl, Channel.carries_ofSize size⟩

lemma faithful_opened {o : Office} (hr : o.registry.Consistent) :
    (opened o).Faithful o.registry :=
  ⟨⟨hr, rfl⟩, nofun⟩

/-- **A channel delivers the records in order, each once, and within its bound.**  At every moment
of every run, however the offers are spread over it and whenever the receiver gets records: as long
as the receiver is there, the records that it has got and those that are queued are together the
records that were accepted; no more are queued than the channel has places; and replaying what the
receiver has got gives the book of the registry at some moment before, at which no request was half
done but for one of staff.  A call that is cancelled, or made when the receiver is gone, changes
nothing and has nothing recorded, up to the next call. -/
theorem channel_delivers {snapshot : Snapshot} {r : Registry} (built : snapshot.build = .ok r)
    (clock : Instant) {n : Nat} {c : Channel} (size : Channel.ofSize? n = some c)
    (acts : List Act) :
    let start := opened ⟨r, clock, .channel c⟩
    let x := start.run acts
    ∃ ch, x.office.outbox = .channel ch ∧
      ch.queue.length ≤ max n 1 ∧
      (ch.isOpen = true → x.received ++ ch.queue = x.accepted) ∧
      (∃ earlier, earlier <+: acts ∧ (start.run earlier).Settled ∧
        r.book.replayAll? (x.received.map (·.entry)) =
          some (start.run earlier).office.registry.book) ∧
      ∀ call rest, call.isCancelled = true ∨ ch.isOpen = false → (∀ a ∈ rest, a.isCall = false) →
        (x.run (.call call :: rest)).office.registry = x.office.registry ∧
          (x.run (.call call :: rest)).accepted = x.accepted := by
  intro start x
  have hdelivers := delivers_opened size r clock
  have hfaithful : start.Faithful r :=
    faithful_opened (o := ⟨r, clock, .channel c⟩) (Snapshot.build_consistent built)
  obtain ⟨ch, hchannel, carries⟩ := run_delivers hdelivers acts
  refine ⟨ch, hchannel, carries.within, carries.complete, ?_, fun call rest hshut hrest => ?_⟩
  · -- what has been received begins what has been accepted
    have hprefix : x.received <+: x.accepted := (List.prefix_append _ _).trans carries.in_order
    obtain ⟨earlier, hearlier, haccepted, hsettled⟩ :=
      accepted_settled hfaithful hdelivers rfl rfl acts hprefix
    refine ⟨earlier, hearlier, hsettled, ?_⟩
    rw [← haccepted]
    exact (run_faithful hfaithful hdelivers earlier).told.replayed
  · exact (Shut.call hchannel hshut).run hrest

/-- Staff enroll student 3 in the full group 1 through a channel with one place.  The record of the
new seat fills the channel, so the student's is only taken after the receiver has got the first.
What the receiver has then is the registry of when the group had grown. -/
theorem channel_delivers_small :
    let start := opened ⟨.small, .epoch, .channel ⟨1, [], true⟩⟩
    let acts : List Act := [.call (.request false (.staffEnroll ⟨3⟩ ⟨⟨100⟩, ⟨1⟩⟩)),
      .offer, .offer, .receive 1, .offer]
    (start.run acts).accepted.length = 2 ∧ (start.run acts).received.length = 1 ∧
      ∃ earlier, earlier <+: acts ∧ (start.run earlier).Settled ∧
        Registry.small.book.replayAll? ((start.run acts).received.map (·.entry)) =
          some (start.run earlier).office.registry.book := by
  intro start acts
  obtain ⟨ch, -, -, -, hearlier, -⟩ :=
    channel_delivers Snapshot.small_build .epoch (n := 0) rfl acts
  exact ⟨by decide +kernel, by decide +kernel, hearlier⟩

end Exchange

end CourseRegistration
