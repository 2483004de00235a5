import CourseRegistration.Event
import CourseRegistration.Journal.Outbox

/-!
# Decisions and how they are carried out

A request is handled in two steps.  First it is decided on the present state alone: it is refused,
or it comes down to a list of changes and an answer.  Then the changes are carried out one after
the other.  The record of a change is offered to the journal, and only once the record is taken
does the state become that of the change.  So whatever the journal does, the state is that of the
last change that was recorded.

Sums of units that do not fit their word are a third way for a decision to end; nothing has been
changed by then.
-/

namespace CourseRegistration

open Journal

/-- Why a request ends without changes. -/
inductive Halt where
  /-- The request fails; `notes` were reported on the way. -/
  | failed (cause : Failure) (notes : List Event)
  /-- A sum does not fit its word. -/
  | overflow
  deriving DecidableEq

/-- A step of a decision.  A whole decision is a `Check` of a `Plan`. -/
abbrev Check := Except Halt

namespace Check

/-- Fails without notes. -/
def fail {α : Type} (cause : Failure) : Check α :=
  .error (.failed cause [])

/-- Goes on if `p` holds, else fails. -/
def require (p : Bool) (cause : Failure) : Check Unit :=
  if p then .ok () else fail cause

/-- Goes on with the value if there is one, else fails. -/
def expect {α : Type} (a : Option α) (cause : Failure) : Check α :=
  match a with
  | some a => .ok a
  | none => fail cause

end Check

/-- One change: the record that must be taken first, the state that follows, and the event that is
reported then. -/
structure Change (σ : Type) where
  /-- What is offered to the journal. -/
  record : Record
  /-- The state once the record is taken. -/
  result : σ
  /-- What is reported once the record is taken. -/
  event : Event

/-- The changes that a request comes down to, and the answer to it once they are made. -/
structure Plan (σ α : Type) where
  /-- The changes in the order in which they are made. -/
  changes : List (Change σ)
  answer : α

namespace Change

/-- The same change of a larger state. -/
def map {σ τ : Type} (f : σ → τ) (c : Change σ) : Change τ :=
  ⟨c.record, f c.result, c.event⟩

/-- The same changes of a larger state, where `atEnd` places the last result and `meanwhile`
those before it. -/
def mapAll {σ τ : Type} (meanwhile atEnd : σ → τ) : List (Change σ) → List (Change τ)
  | [] => []
  | [c] => [c.map atEnd]
  | c :: cs => c.map meanwhile :: mapAll meanwhile atEnd cs

end Change

/-! ## Carrying out -/

/-- Why carrying out changes stopped before the last one. -/
inductive Stop where
  /-- A record was refused. -/
  | refused (why : Refusal)
  /-- A record got no answer. -/
  | pending
  deriving DecidableEq

/-- How far changes were carried out. -/
structure Progress (σ : Type) where
  /-- The state of the last change that was recorded. -/
  state : σ
  outbox : Outbox
  taken : List Record
  /-- The records that were offered and not taken. -/
  declined : List Record
  events : List Event
  /-- Why not all changes were made. -/
  stop : Option Stop

/-- Offers the records of `changes` in turn, and makes each change whose record is taken, up to the
first one whose record is not. -/
def carryOut {σ : Type} (cancelled : Bool) : List (Change σ) → σ → Outbox → Progress σ
  | [], s, o => ⟨s, o, [], [], [], none⟩
  | c :: cs, s, o =>
    match o.offer cancelled c.record with
    | (.taken, o') =>
      let p := carryOut cancelled cs c.result o'
      { p with taken := c.record :: p.taken, events := c.event :: p.events }
    | (.refused why, o') => ⟨s, o', [], [c.record], [], some (.refused why)⟩
    | (.pending, o') => ⟨s, o', [], [c.record], [], some .pending⟩

/-! ## Outcomes -/

/-- How a request ends. -/
inductive Outcome (α : Type) where
  | done (answer : α)
  | failed (cause : Failure)
  /-- A sum did not fit its word. -/
  | overflow
  /-- The request waited for the journal and was abandoned. -/
  | waiting
  deriving DecidableEq

/-- What a request brought about besides its new state. -/
structure Report (α : Type) where
  /-- How the request ended. -/
  outcome : Outcome α
  taken : List Record
  /-- The records that were offered and not taken. -/
  declined : List Record
  events : List Event

namespace Report

/-- A report without records. -/
def plain {α : Type} (outcome : Outcome α) (events : List Event) : Report α :=
  ⟨outcome, [], [], events⟩

/-- The outcome of carrying changes out, with the answer if all were made. -/
def outcomeOf {α : Type} (answer : α) : Option Stop → Outcome α
  | none => .done answer
  | some (.refused why) => .failed (.journal why)
  | some .pending => .waiting

end Report

/-- Carries out what was decided in state `s`. -/
def execute {σ α : Type} (cancelled : Bool) (decision : Check (Plan σ α)) (s : σ) (o : Outbox) :
    Report α × σ × Outbox :=
  match decision with
  | .error (.failed cause notes) => (.plain (.failed cause) notes, s, o)
  | .error .overflow => (.plain .overflow [], s, o)
  | .ok plan =>
    let p := carryOut cancelled plan.changes s o
    (⟨Report.outcomeOf plan.answer p.stop, p.taken, p.declined, p.events⟩, p.state, p.outbox)

end CourseRegistration
