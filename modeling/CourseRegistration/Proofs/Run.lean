import CourseRegistration.Proofs.Effects

/-!
# Runs of an office

An office is called, and between calls the time of an exam may be set, the clock moves, and the
outbox changes: a receiver takes records or leaves, the journal answers differently from then on.
Each of these is a `Turn`; a run is any list of turns.  The outbox of a turn is arbitrary, so every
way in which a journal can answer the offers of a call is the behaviour of some run.

What a run keeps is proved in one place.  `run_keeps` and `run_reports` say that a property of the
registry, and of the records in the journal so far, holds after a run if every listed effect keeps
it and setting the time of an exam does.
-/

namespace CourseRegistration

open Journal

/-! ## Calls -/

/-- What can be read from an office. -/
inductive Query where
  /-- The courses of a student, with the student's place in each. -/
  | courses (student : StudentId)
  /-- What is kept about a student. -/
  | summary (student : StudentId)
  /-- Everyone who has a place in a section. -/
  | roster (key : SectionKey)
  /-- The sections of a department. -/
  | offerings (department : DepartmentId)
  /-- Whether the enrollment window of a student is open. -/
  | window (student : StudentId)

/-- What an office answers to a call that succeeds. -/
inductive Response where
  | met (answer : Answer)
  | courses (courses : List StudentCourse)
  | summary (student : Student)
  | roster (roster : Roster)
  | offerings (offerings : List Offering)
  | window (isOpen : Bool)

/-- A call of an office: a request, which may be cancelled already, or a query. -/
inductive Call where
  | request (cancelled : Bool) (request : Request)
  | query (query : Query)

/-- The same outcome with its answer put differently. -/
def Outcome.map {α β : Type} (f : α → β) : Outcome α → Outcome β
  | done answer => .done (f answer)
  | failed cause => .failed cause
  | overflow => .overflow
  | waiting => .waiting

/-- The same report with its answer put differently. -/
def Report.map {α β : Type} (f : α → β) (p : Report α) : Report β :=
  ⟨p.outcome.map f, p.taken, p.declined, p.events⟩

/-- The report ends with a fault of the registry. -/
def Report.Faulty {α : Type} (p : Report α) : Prop :=
  ∃ what, p.outcome = .failed (.fault what)

/-- The records that reached the journal, in order. -/
def Report.journal {α : Type} (reports : List (Report α)) : List Record :=
  reports.flatMap (·.taken)

namespace Office

/-- The report of a query. -/
def ask (o : Office) : Query → Report Response
  | .courses id => (o.coursesOf id).map .courses
  | .summary id => (query (o.registry.student id)).map .summary
  | .roster key => (query (o.registry.rosterOf key)).map .roster
  | .offerings department => (query (.ok (o.registry.offerings department))).map .offerings
  | .window id => (query (o.registry.windowOpen o.clock id)).map .window

/-- Serves a call. -/
def serve (o : Office) : Call → Report Response × Office
  | .request cancelled request =>
    let (report, o') := o.handle cancelled request
    (report.map .met, o')
  | .query query => (o.ask query, o)

end Office

/-! ## Turns -/

/-- One thing that happens to an office. -/
inductive Turn where
  | call (call : Call)
  /-- The time of an exam is set. -/
  | examTime (ref : Catalog.Ref) (time : Int64)
  | clock (now : Instant)
  | outbox (outbox : Outbox)

namespace Office

/-- The office after a turn, and the report of the turn if it is a call. -/
def turn (o : Office) : Turn → List (Report Response) × Office
  | .call call =>
    let (report, o') := o.serve call
    ([report], o')
  | .examTime ref time => ([], { o with registry := o.registry.setExamTime ref time })
  | .clock now => ([], { o with clock := now })
  | .outbox outbox => ([], { o with outbox := outbox })

/-- The reports of a run in order, and the office after it. -/
def run (o : Office) : List Turn → List (Report Response) × Office
  | [] => ([], o)
  | t :: rest =>
    let (reports, o') := o.turn t
    let (later, o'') := o'.run rest
    (reports ++ later, o'')

/-- A query offers nothing to the journal. -/
lemma ask_records (o : Office) (q : Query) : (o.ask q).taken = [] ∧ (o.ask q).declined = [] := by
  have plain : ∀ {α : Type} (x : Check α),
      (Office.query x).taken = [] ∧ (Office.query x).declined = [] := by
    intro α x
    rcases x with (_ | _) | _ <;> exact ⟨rfl, rfl⟩
  cases q with
  | courses id =>
    show (o.coursesOf id).taken = [] ∧ (o.coursesOf id).declined = []
    unfold coursesOf Report.announcing
    split
    · exact plain _
    · exact plain _
  | summary id => exact plain (o.registry.student id)
  | roster key => exact plain (o.registry.rosterOf key)
  | offerings department => exact plain (.ok (o.registry.offerings department))
  | window id => exact plain (o.registry.windowOpen o.clock id)

/-! ## What a run keeps -/

variable {P : List Record → Registry → Prop}

/-- The induction behind every statement about runs: `P` is about the records in the journal so far
and the registry they have led to. -/
theorem run_keeps
    (effect : ∀ {log now r request records r'}, P log r →
      Registry.Effect now r request records r' → P (log ++ records) r')
    (examTime : ∀ {log r} ref time, P log r → P log (r.setExamTime ref time))
    (turns : List Turn) {o : Office} (log : List Record) (h : P log o.registry) :
    P (log ++ Report.journal (o.run turns).1) (o.run turns).2.registry := by
  induction turns generalizing o log with
  | nil => simpa [run, Report.journal] using h
  | cons t rest ih =>
    have hturn : P (log ++ Report.journal (o.turn t).1) (o.turn t).2.registry := by
      cases t with
      | call call =>
        cases call with
        | request cancelled request =>
          simpa [turn, serve, Report.journal, Report.map] using
            effect h (o.handle_effect cancelled request)
        | query q => simpa [turn, serve, Report.journal, (o.ask_records q).1] using h
      | examTime ref time => simpa [turn, Report.journal] using examTime ref time h
      | clock now => simpa [turn, Report.journal] using h
      | outbox outbox => simpa [turn, Report.journal] using h
    simpa [run, Report.journal] using ih _ hturn

/-- What every call of a run reports, if `Q` follows from what the run keeps. -/
theorem run_reports {P : Registry → Prop} {Q : Report Response → Prop}
    (effect : ∀ {now r request records r'}, P r →
      Registry.Effect now r request records r' → P r')
    (examTime : ∀ {r} ref time, P r → P (r.setExamTime ref time))
    (report : ∀ {o : Office} (call : Call), P o.registry → Q (o.serve call).1)
    (turns : List Turn) {o : Office} (h : P o.registry) :
    ∀ p ∈ (o.run turns).1, Q p := by
  induction turns generalizing o with
  | nil =>
    intro p hp
    cases hp
  | cons t rest ih =>
    intro p hp
    have hturn : P (o.turn t).2.registry := by
      have := @run_keeps (fun _ r => P r) effect examTime [t] o [] h
      simpa [run] using this
    rcases List.mem_append.1 hp with hp | hp
    · cases t with
      | call call =>
        rw [List.mem_singleton.1 hp]
        exact report call h
      | examTime ref time => cases hp
      | clock now => cases hp
      | outbox outbox => cases hp
    · exact ih hturn p hp

/-! ## Restricted runs -/

lemma run_singleton (o : Office) (t : Turn) : (o.run [t]).2 = (o.turn t).2 :=
  rfl

/-- A turn serves a request, sets the time of an exam, or leaves the registry alone. -/
lemma turn_cases (o : Office) (t : Turn) :
    (o.turn t).2.registry = o.registry ∨
    (∃ ref time, t = .examTime ref time ∧
      (o.turn t).2.registry = o.registry.setExamTime ref time) ∨
    ∃ cancelled request, t = .call (.request cancelled request) ∧
      (o.turn t).1 = [(o.handle cancelled request).1.map .met] ∧
      (o.turn t).2.registry = (o.handle cancelled request).2.registry := by
  cases t with
  | call call =>
    cases call with
    | request cancelled request => exact .inr (.inr ⟨cancelled, request, rfl, rfl, rfl⟩)
    | query q => exact .inl rfl
  | examTime ref time => exact .inr (.inl ⟨ref, time, rfl, rfl⟩)
  | clock now => exact .inl rfl
  | outbox outbox => exact .inl rfl

/-- The induction behind statements about some runs only.  A run may be restricted by the turns that
occur in it, by what they report (`Q`), and by the registries that it passes through (`H`). -/
theorem run_keeps_while {P H : Registry → Prop} {Q : Report Response → Prop} (turns : List Turn)
    (step : ∀ {o : Office}, ∀ t ∈ turns, P o.registry → (∀ p ∈ (o.turn t).1, Q p) →
      H (o.turn t).2.registry → P (o.turn t).2.registry)
    {o : Office} (start : P o.registry) (reports : ∀ p ∈ (o.run turns).1, Q p)
    (states : ∀ earlier, earlier <+: turns → H (o.run earlier).2.registry) :
    P (o.run turns).2.registry := by
  induction turns generalizing o with
  | nil => exact start
  | cons t rest ih =>
    have hreports : ∀ p ∈ (o.turn t).1 ++ ((o.turn t).2.run rest).1, Q p := reports
    have hfirst : H (o.turn t).2.registry := states [t] (List.prefix_append [t] rest)
    have hturn : P (o.turn t).2.registry :=
      step t List.mem_cons_self start (fun p hp => hreports p (List.mem_append_left _ hp)) hfirst
    have hstep : ∀ {o : Office}, ∀ t ∈ rest, P o.registry → (∀ p ∈ (o.turn t).1, Q p) →
        H (o.turn t).2.registry → P (o.turn t).2.registry := fun t' ht' =>
      step t' (List.mem_cons_of_mem _ ht')
    refine ih hstep hturn (fun p hp => hreports p (List.mem_append_right _ hp)) ?_
    intro earlier hearlier
    exact states (t :: earlier) ((List.prefix_cons_inj t).2 hearlier)

end Office

end CourseRegistration
