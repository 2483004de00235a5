import CourseRegistration.Registry.Queries
import CourseRegistration.Registry.Workflows

/-!
# The office

The office serves requests: it has the registry, a clock and the outbox to the journal.  A request
is decided on the registry, carried out against the outbox, and if it failed, reported once as a
failure.  A change of capacity reports only failures of a section that exists.
-/

namespace CourseRegistration

open Journal

/-- A registry in service. -/
structure Office where
  registry : Registry
  clock : Instant
  outbox : Outbox

/-- What students and staff may ask for. -/
inductive Request where
  | enroll (student : StudentId) (key : SectionKey)
  | drop (student : StudentId) (course : CourseId)
  | switchGroup (student : StudentId) (key : SectionKey)
  | staffEnroll (student : StudentId) (key : SectionKey)
  | staffDrop (student : StudentId) (course : CourseId)
  | resize (key : SectionKey) (capacity : UInt64)
  deriving DecidableEq

/-- The answer to a request that was met. -/
inductive Answer where
  /-- There is nothing to say. -/
  | done
  /-- These students moved up, in this order. -/
  | promoted (students : List StudentId)
  deriving DecidableEq

namespace Request

/-- The name under which a failure of the request is reported. -/
def action : Request → Action
  | enroll .. => .enroll
  | drop .. => .drop
  | switchGroup .. => .switchGroup
  | staffEnroll .. => .staffEnroll
  | staffDrop .. => .staffDrop
  | resize .. => .resize

/-- What the request is about. -/
def subject : Request → Subject
  | enroll student key | switchGroup student key | staffEnroll student key =>
    .studentCourse student key.course
  | drop student course | staffDrop student course => .studentCourse student course
  | resize key _ => .oneSection key

end Request

/-- The plan with the answer put as an answer to a request. -/
def Plan.answering {σ α : Type} (p : Plan σ α) (f : α → Answer) : Plan σ Answer :=
  ⟨p.changes, f p.answer⟩

namespace Report

/-- The report with the failure, if the request failed, as the last event. -/
def announcing {α : Type} (p : Report α) (action : Action) (subject : Subject) : Report α :=
  match p.outcome with
  | .failed cause => { p with events := p.events ++ [.failed action subject cause] }
  | _ => p

end Report

namespace Office

/-! ## Requests -/

/-- What is decided about a request. -/
def decide (o : Office) : Request → Check (Plan Registry Answer)
  | .enroll student key => return (← o.registry.enroll o.clock student key).answering fun _ => .done
  | .drop student course =>
    return (← o.registry.drop o.clock student course).answering fun _ => .done
  | .switchGroup student key =>
    return (← o.registry.switchGroup o.clock student key).answering fun _ => .done
  | .staffEnroll student key =>
    return (← o.registry.staffEnroll student key).answering fun _ => .done
  | .staffDrop student course =>
    return (← o.registry.staffDrop student course).answering fun _ => .done
  | .resize key capacity => do
    let (ref, s) ← o.registry.offered key
    return (← o.registry.resize ref s capacity).answering .promoted

/-- Carries out what was decided. -/
def carry {α : Type} (o : Office) (cancelled : Bool) (decision : Check (Plan Registry α)) :
    Report α × Office :=
  let (report, registry, outbox) := execute cancelled decision o.registry o.outbox
  (report, { o with registry := registry, outbox := outbox })

/-- Whether a failure of the request is reported.  A change of capacity is reported under its
section, so the section has to exist. -/
def announces (o : Office) : Request → Bool
  | .resize key _ => (o.registry.catalog.lookup key).isSome
  | _ => true

/-- Serves a request. -/
def handle (o : Office) (cancelled : Bool) (request : Request) : Report Answer × Office :=
  let (report, o') := o.carry cancelled (o.decide request)
  if o.announces request then (report.announcing request.action request.subject, o')
  else (report, o')

/-! ## Queries -/

/-- The report of a query. -/
def query {α : Type} (answer : Check α) : Report α :=
  match answer with
  | .ok a => .plain (.done a) []
  | .error (.failed cause notes) => .plain (.failed cause) notes
  | .error .overflow => .plain .overflow []

/-- The sections that the student holds; a failure is reported. -/
def coursesOf (o : Office) (id : StudentId) : Report (List StudentCourse) :=
  (query (o.registry.coursesOf id)).announcing .listCourses (.student id)

/-! ## Direct access to sections

The moves of places can also be asked of a section itself.  What students hold is then left as it
is, and failures are not reported. -/

/-- Carries out a move within a section. -/
def atSection {α : Type} (o : Office) (cancelled : Bool) (ref : Catalog.Ref)
    (move : Section → Check (Plan Section α)) : Option (Report α × Office) := do
  let s ← o.registry.catalog.get? ref
  return o.carry cancelled ((move s).map (o.registry.atSection ref))

/-- Carries out a move between two sections. -/
def atSections {α : Type} (o : Office) (cancelled : Bool) (ref ref' : Catalog.Ref)
    (move : Section → Section → Check (Plan (Section × Section) α)) :
    Option (Report α × Office) := do
  let s ← o.registry.catalog.get? ref
  let t ← o.registry.catalog.get? ref'
  return o.carry cancelled ((move s t).map (o.registry.atSections ref ref'))

end Office

end CourseRegistration
