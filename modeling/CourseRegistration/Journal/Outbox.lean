import CourseRegistration.Journal.Entry

/-!
# Outboxes

Records leave for the journal through an outbox.  Each record is offered once, and the outbox
takes it, refuses it, or leaves the request waiting.  A request that is left waiting is abandoned.

Two outboxes are given: a channel, which queues records for a receiver and never holds more than
its bound, and a script, which answers as it is told.
-/

namespace CourseRegistration.Journal

/-- What becomes of an offered record. -/
inductive Reply where
  /-- The record is in the journal for good. -/
  | taken
  /-- The record is not in the journal. -/
  | refused (why : Refusal)
  /-- No answer comes. -/
  | pending
  deriving DecidableEq

/-! ## Channels -/

/-- A bounded queue of records with a receiver at its far end. -/
structure Channel where
  /-- How many records may be queued. -/
  bound : Nat
  queue : List Record
  /-- Whether the receiver is still there. -/
  isOpen : Bool
  deriving DecidableEq

namespace Channel

/-- The largest bound of a channel: places are counted in a 64-bit word with three bits to spare. -/
def largestBound : Nat := Nat.pow 2 61 - 1

/-- An empty channel for `n` records, or for one if `n` is zero; there is none for more records
than the largest bound. -/
def ofSize? (n : Nat) : Option Channel :=
  if n ≤ largestBound then some ⟨max n 1, [], true⟩ else none

/-- Offers a record.  Cancellation is looked at first, then whether the receiver is there, then
whether there is room. -/
def offer (cancelled : Bool) (r : Record) (c : Channel) : Reply × Channel :=
  if cancelled then (.refused .cancelled, c)
  else if !c.isOpen then (.refused .closed, c)
  else if c.bound ≤ c.queue.length then (.pending, c)
  else (.taken, { c with queue := c.queue ++ [r] })

/-- Hands the oldest `n` records to the receiver. -/
def receive (n : Nat) (c : Channel) : List Record × Channel :=
  (c.queue.take n, { c with queue := c.queue.drop n })

/-- The receiver leaves; what is queued is lost. -/
def close (c : Channel) : Channel :=
  { c with queue := [], isOpen := false }

end Channel

/-! ## Scripts -/

/-- One answer of a script. -/
inductive Cue where
  | accept
  | refuse (why : Refusal)
  /-- Accept, but not for a request that was cancelled. -/
  | honourCancellation
  | hang
  deriving DecidableEq

/-- The reply that a cue gives. -/
def Cue.reply (cancelled : Bool) : Cue → Reply
  | accept => .taken
  | refuse why => .refused why
  | honourCancellation => if cancelled then .refused .cancelled else .taken
  | hang => .pending

/-- The answers to the coming offers, and the answer to all later ones. -/
structure Script where
  /-- The answers to the next offers, in order. -/
  cues : List Cue
  /-- The answer once the cues are used up. -/
  afterwards : Cue
  deriving DecidableEq

namespace Script

/-- A script that accepts every record. -/
def accepting : Script := ⟨[], .accept⟩

/-- Offers a record. -/
def offer (cancelled : Bool) (s : Script) : Reply × Script :=
  match s.cues with
  | [] => (s.afterwards.reply cancelled, s)
  | cue :: cues => (cue.reply cancelled, { s with cues := cues })

end Script

/-! ## Outboxes -/

/-- The way by which records leave for the journal. -/
inductive Outbox where
  | channel (c : Channel)
  | script (s : Script)
  deriving DecidableEq

namespace Outbox

/-- Offers a record. -/
def offer (cancelled : Bool) (r : Record) : Outbox → Reply × Outbox
  | channel c =>
    let (reply, c') := c.offer cancelled r
    (reply, channel c')
  | script s =>
    let (reply, s') := s.offer cancelled
    (reply, script s')

/-- Hands the oldest `n` queued records of a channel to its receiver. -/
def receive (n : Nat) : Outbox → List Record × Outbox
  | channel c =>
    let (records, c') := c.receive n
    (records, channel c')
  | script s => ([], script s)

/-- How many records wait for a receiver. -/
def backlog : Outbox → Nat
  | channel c => c.queue.length
  | script _ => 0

/-- The receiver of a channel leaves. -/
def close : Outbox → Outbox
  | channel c => channel c.close
  | script s => script s

end Outbox

end CourseRegistration.Journal
