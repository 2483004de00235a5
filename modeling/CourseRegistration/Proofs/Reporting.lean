import CourseRegistration.Proofs.Run
import CourseRegistration.Proofs.Snapshot

/-!
# Reporting failures

A request can end in many ways, and whichever it is, the report of a failure is made in one place,
after everything else.  So two things have to be known.  Nothing on the way reports a failure: the
notes of a check are conflicts of times, and the events of a plan are changes that were made.  That
is `Check.EndsQuietly`, put together check by check for every request (`decide_endsQuietly`).  And
reporting adds that one event and changes nothing (`handle_reported`).

There is one way past it.  A change of capacity is reported under its section, and the section is
looked up before: if it does not exist, the request fails without a report
(`missing_section_unreported`).  Such a failure is no alarm.  So the warnings and errors of a run
are still those of its calls that failed because of the journal or because of a fault, in the order
of the calls (`alarms_run`).  The main statement is `failures_reported`.
-/

namespace CourseRegistration

open Journal Check

/-! ## Events -/

/-- The failure is no mere rejection. -/
def Failure.isGrave : Failure → Bool
  | journal _ | fault _ => true
  | _ => false

/-- The cause, if the request failed. -/
def Outcome.cause? {α : Type} : Outcome α → Option Failure
  | failed cause => some cause
  | done _ | overflow | waiting => none

namespace Event

/-- The event reports that a request failed. -/
def isFailure : Event → Bool
  | failed .. => true
  | _ => false

/-- The event is a warning or an error. -/
def isAlarm (e : Event) : Bool :=
  e.level = .warning || e.level = .error

/-- None of the events reports a failure. -/
def Quiet (events : List Event) : Prop :=
  ∀ e ∈ events, e.isFailure = false

/-- The event reports that a request failed for the given cause.  It names what was asked for and
the cause, and its level tells the kind of the cause. -/
structure Announces (e : Event) (action : Action) (subject : Subject) (cause : Failure) : Prop where
  reports : e = .failed action subject cause
  named : ∃ between, e.message = action.name ++ between ++ cause.message
  warning : e.level = .warning ↔ ∃ why, cause = .journal why
  error : e.level = .error ↔ ∃ what, cause = .fault what
  debug : e.level = .debug ↔ (¬ ∃ why, cause = .journal why) ∧ ¬ ∃ what, cause = .fault what

variable {e : Event} {events : List Event} {action : Action} {subject : Subject} {cause : Failure}

lemma announces_failed : (failed action subject cause).Announces action subject cause where
  reports := rfl
  named := by
    refine ⟨" " ++ failureVerb cause ++ " for " ++ subject.text ++ ": ", ?_⟩
    unfold message
    simp only [String.append_assoc]
  warning := by cases cause <;> simp [level, failureLevel, Failure.category]
  error := by cases cause <;> simp [level, failureLevel, Failure.category]
  debug := by cases cause <;> simp [level, failureLevel, Failure.category]

lemma isAlarm_failed : (failed action subject cause).isAlarm = cause.isGrave := by
  cases cause <;> rfl

/-- Only failures are alarms. -/
lemma isAlarm_eq_false (h : e.isFailure = false) : e.isAlarm = false := by
  cases e with
  | failed => cases h
  | _ => rfl

lemma Quiet.filter_isAlarm (h : Quiet events) : events.filter isAlarm = [] :=
  List.filter_eq_nil_iff.2 fun e he => Bool.eq_false_iff.1 (isAlarm_eq_false (h e he))

lemma quiet_nil : Quiet [] :=
  List.forall_mem_nil _

end Event

/-! ## Decisions without a report -/

/-- None of the changes is reported as a failure. -/
def Plan.Quiet {σ α : Type} (p : Plan σ α) : Prop :=
  ∀ c ∈ p.changes, c.event.isFailure = false

lemma Plan.quiet_nil {σ α : Type} (answer : α) : (⟨[], answer⟩ : Plan σ α).Quiet :=
  List.forall_mem_nil _

lemma Plan.Quiet.cons {σ α : Type} {c : Change σ} {changes : List (Change σ)} {answer : α}
    (hc : c.event.isFailure = false) (h : (⟨changes, answer⟩ : Plan σ α).Quiet) :
    (⟨c :: changes, answer⟩ : Plan σ α).Quiet :=
  List.forall_mem_cons.2 ⟨hc, h⟩

namespace Check

variable {α β : Type} {P : α → Prop} {Q : β → Prop}

/-- If the check fails, no failure has been reported yet, and if it goes through, its result is as
stated. -/
def EndsQuietly (P : α → Prop) : Check α → Prop
  | .error (.failed _ notes) => Event.Quiet notes
  | .error .overflow => True
  | .ok a => P a

lemma EndsQuietly.bind {x : Check α} {f : α → Check β} (hx : x.EndsQuietly P)
    (hf : ∀ a, P a → (f a).EndsQuietly Q) : EndsQuietly Q (x >>= f) := by
  rcases x with (⟨cause, notes⟩ | _) | a
  · exact hx
  · trivial
  · exact hf a hx

lemma EndsQuietly.require_bind {p : Bool} {cause : Failure} {f : Unit → Check β}
    (hf : (f ()).EndsQuietly Q) : EndsQuietly Q (require p cause >>= f) := by
  cases p with
  | false => exact Event.quiet_nil
  | true => exact hf

lemma EndsQuietly.expect_bind {a : Option α} {cause : Failure} {f : α → Check β}
    (hf : ∀ b, (f b).EndsQuietly Q) : EndsQuietly Q (expect a cause >>= f) := by
  cases a with
  | none => exact Event.quiet_nil
  | some b => exact hf b

lemma EndsQuietly.mapM {f : α → Check β} {as : List α}
    (h : ∀ a, (f a).EndsQuietly fun _ => True) : EndsQuietly (fun _ => True) (as.mapM f) := by
  induction as with
  | nil => trivial
  | cons a rest ih =>
    rw [List.mapM_cons]
    exact (h a).bind fun _ _ => ih.bind fun _ _ => trivial

end Check

/-! ## Moves of places -/

namespace Section

variable {s t : Section} {id : StudentId}

lemma grant_endsQuietly : (s.grant id).EndsQuietly Plan.Quiet := by
  unfold grant
  split
  · exact Plan.quiet_nil _
  · exact (Plan.quiet_nil _).cons rfl

lemma release_endsQuietly : (s.release id).EndsQuietly Plan.Quiet :=
  EndsQuietly.require_bind ((Plan.quiet_nil _).cons rfl)

lemma transfer_endsQuietly : (s.transfer t id).EndsQuietly Plan.Quiet := by
  refine EndsQuietly.require_bind (EndsQuietly.require_bind ?_)
  split
  · exact Plan.quiet_nil _
  · exact (Plan.quiet_nil _).cons rfl

lemma grantByForce_endsQuietly : (s.grantByForce id).EndsQuietly Plan.Quiet := by
  unfold grantByForce
  split_ifs
  · exact (Plan.quiet_nil _).cons rfl
  · trivial
  · exact ((Plan.quiet_nil _).cons rfl).cons rfl

lemma resize_endsQuietly {capacity : UInt64} : (s.resize capacity).EndsQuietly Plan.Quiet := by
  refine EndsQuietly.require_bind ?_
  split_ifs
  · exact Plan.quiet_nil _
  · exact (Plan.quiet_nil _).cons rfl

end Section

/-! ## Requests -/

section

variable {σ τ α : Type}

/-- Changes of a larger state are reported like those they come from. -/
lemma Change.event_of_mem_mapAll {meanwhile atEnd : σ → τ} {changes : List (Change σ)}
    {c : Change τ} (hc : c ∈ mapAll meanwhile atEnd changes) :
    ∃ c' ∈ changes, c'.event = c.event := by
  induction changes with
  | nil => cases hc
  | cons d rest ih =>
    cases rest with
    | nil => exact ⟨d, List.mem_singleton_self d, by rw [List.mem_singleton.1 hc]; rfl⟩
    | cons d' rest =>
      rcases List.mem_cons.1 hc with rfl | hc
      · exact ⟨d, List.mem_cons_self, rfl⟩
      · obtain ⟨c', hc', hevent⟩ := ih hc
        exact ⟨c', List.mem_cons_of_mem _ hc', hevent⟩

lemma Plan.Quiet.settle {p : Plan Registry α} (h : p.Quiet) (student : Student) :
    (p.settle student).Quiet := by
  intro c hc
  obtain ⟨c', hc', hevent⟩ := Change.event_of_mem_mapAll hc
  rw [← hevent]
  exact h c' hc'

lemma Plan.Quiet.atSection {p : Plan Section α} (h : p.Quiet) (r : Registry) (ref : Catalog.Ref) :
    (r.atSection ref p).Quiet :=
  List.forall_mem_map.2 h

lemma Plan.Quiet.atSections {p : Plan (Section × Section) α} (h : p.Quiet) (r : Registry)
    (ref ref' : Catalog.Ref) : (r.atSections ref ref' p).Quiet :=
  List.forall_mem_map.2 h

end

namespace Registry

variable {r : Registry} {now : Instant} {id : StudentId} {key : SectionKey} {course : CourseId}
  {student : Student} {ref : Catalog.Ref} {s wanted : Section}

lemma totalWith_endsQuietly {total : UInt16} {units : UInt8} :
    (totalWith total units).EndsQuietly fun _ => True := by
  unfold totalWith
  split <;> trivial

/-- A conflict is noted, and a note is no report of a failure. -/
lemma checkClashes_endsQuietly {keys : List SectionKey} :
    (r.checkClashes id wanted keys).EndsQuietly fun _ => True := by
  induction keys with
  | nil => trivial
  | cons key rest ih =>
    refine EndsQuietly.expect_bind fun (ref, held) => ?_
    show EndsQuietly _ (if _ then _ else _)
    split_ifs
    · exact List.forall_mem_singleton.2 rfl
    · exact List.forall_mem_singleton.2 rfl
    · exact ih

lemma enroll_endsQuietly : (r.enroll now id key).EndsQuietly Plan.Quiet := by
  refine EndsQuietly.expect_bind fun student => ?_
  refine EndsQuietly.require_bind ?_
  refine EndsQuietly.expect_bind fun (ref, wanted) => ?_
  refine EndsQuietly.require_bind ?_
  refine totalWith_endsQuietly.bind fun units _ => ?_
  refine EndsQuietly.require_bind (EndsQuietly.require_bind ?_)
  refine checkClashes_endsQuietly.bind fun _ _ => ?_
  refine Section.grant_endsQuietly.bind fun plan hplan => ?_
  exact EndsQuietly.require_bind ((hplan.atSection r ref).settle _)

lemma releaseCourse_endsQuietly {after : Student → Student} :
    (r.releaseCourse student course after).EndsQuietly Plan.Quiet := by
  refine EndsQuietly.expect_bind fun group => ?_
  refine EndsQuietly.expect_bind fun (ref, held) => ?_
  refine Section.release_endsQuietly.bind fun plan hplan => ?_
  exact (hplan.atSection r ref).settle _

lemma drop_endsQuietly : (r.drop now id course).EndsQuietly Plan.Quiet := by
  refine EndsQuietly.expect_bind fun student => ?_
  exact EndsQuietly.require_bind (EndsQuietly.require_bind releaseCourse_endsQuietly)

lemma staffDrop_endsQuietly : (r.staffDrop id course).EndsQuietly Plan.Quiet :=
  EndsQuietly.expect_bind fun _ => releaseCourse_endsQuietly

lemma switchGroup_endsQuietly : (r.switchGroup now id key).EndsQuietly Plan.Quiet := by
  refine EndsQuietly.expect_bind fun student => ?_
  refine EndsQuietly.require_bind (EndsQuietly.require_bind ?_)
  refine EndsQuietly.expect_bind fun group => ?_
  refine EndsQuietly.require_bind ?_
  refine EndsQuietly.expect_bind fun (ref, source) => ?_
  refine EndsQuietly.expect_bind fun (ref', destination) => ?_
  refine EndsQuietly.require_bind ?_
  refine totalWith_endsQuietly.bind fun total _ => ?_
  refine EndsQuietly.require_bind ?_
  refine checkClashes_endsQuietly.bind fun _ _ => ?_
  refine Section.transfer_endsQuietly.bind fun plan hplan => ?_
  exact EndsQuietly.require_bind ((hplan.atSections r ref ref').settle _)

lemma staffEnroll_endsQuietly : (r.staffEnroll id key).EndsQuietly Plan.Quiet := by
  refine EndsQuietly.expect_bind fun student => ?_
  refine EndsQuietly.expect_bind fun (ref, wanted) => ?_
  refine EndsQuietly.require_bind ?_
  refine Section.grantByForce_endsQuietly.bind fun plan hplan => ?_
  exact (hplan.atSection r ref).settle _

lemma resize_endsQuietly {capacity : UInt64} : (r.resize ref s capacity).EndsQuietly Plan.Quiet :=
  Section.resize_endsQuietly.bind fun _ hplan => hplan.atSection r ref

lemma coursesOf_endsQuietly : (r.coursesOf id).EndsQuietly fun _ => True := by
  refine EndsQuietly.expect_bind fun student => EndsQuietly.mapM fun key => ?_
  refine EndsQuietly.expect_bind fun (ref, s) => ?_
  show EndsQuietly _ (s.seenBy id)
  unfold Section.seenBy
  split
  · trivial
  · exact Event.quiet_nil

end Registry

namespace Office

/-- **Whatever is decided about a request, its failure has not been reported on the way.** -/
theorem decide_endsQuietly (o : Office) (request : Request) :
    (o.decide request).EndsQuietly Plan.Quiet := by
  cases request with
  | enroll id key => exact Registry.enroll_endsQuietly.bind fun _ hplan => hplan
  | drop id course => exact Registry.drop_endsQuietly.bind fun _ hplan => hplan
  | switchGroup id key => exact Registry.switchGroup_endsQuietly.bind fun _ hplan => hplan
  | staffEnroll id key => exact Registry.staffEnroll_endsQuietly.bind fun _ hplan => hplan
  | staffDrop id course => exact Registry.staffDrop_endsQuietly.bind fun _ hplan => hplan
  | resize key capacity =>
    refine EndsQuietly.expect_bind fun (ref, s) => ?_
    exact Registry.resize_endsQuietly.bind fun _ hplan => hplan

end Office

/-! ## Carrying out and reporting -/

section

variable {σ α β : Type}

/-- What is reported while changes are made is reported by these changes. -/
lemma carryOut_quiet (cancelled : Bool) {changes : List (Change σ)}
    (h : ∀ c ∈ changes, c.event.isFailure = false) (s : σ) (o : Outbox) :
    Event.Quiet (carryOut cancelled changes s o).events := by
  induction changes generalizing s o with
  | nil => exact Event.quiet_nil
  | cons c rest ih =>
    obtain ⟨hc, hrest⟩ := List.forall_mem_cons.1 h
    rcases hoffer : o.offer cancelled c.record with ⟨_ | _ | _, o'⟩
    · simp only [carryOut, hoffer]
      exact List.forall_mem_cons.2 ⟨hc, ih hrest c.result o'⟩
    · simp only [carryOut, hoffer]
      exact Event.quiet_nil
    · simp only [carryOut, hoffer]
      exact Event.quiet_nil

lemma execute_quiet (cancelled : Bool) {decision : Check (Plan σ α)}
    (h : decision.EndsQuietly Plan.Quiet) (s : σ) (o : Outbox) :
    Event.Quiet (execute cancelled decision s o).1.events := by
  rcases decision with (⟨cause, notes⟩ | _) | plan
  · exact h
  · exact Event.quiet_nil
  · exact carryOut_quiet cancelled h s o

/-- A report with the failure, if there is one, has that one event more. -/
lemma Report.announcing_eq (p : Report α) (action : Action) (subject : Subject) :
    p.announcing action subject =
      { p with events := p.events ++ p.outcome.cause?.toList.map (.failed action subject) } := by
  rcases p with ⟨_ | _ | _ | _, taken, declined, events⟩
  · simp [announcing, Outcome.cause?]
  · rfl
  · simp [announcing, Outcome.cause?]
  · simp [announcing, Outcome.cause?]

lemma Outcome.cause?_map (f : α → β) (outcome : Outcome α) :
    (outcome.map f).cause? = outcome.cause? := by
  cases outcome <;> rfl

lemma Outcome.cause?_eq_some_iff {outcome : Outcome α} {cause : Failure} :
    outcome.cause? = some cause ↔ outcome = .failed cause := by
  cases outcome <;> simp [cause?]

lemma Outcome.cause?_eq_none_iff {outcome : Outcome α} :
    outcome.cause? = none ↔ ∀ cause, outcome ≠ .failed cause := by
  cases outcome <;> simp [cause?]

end

namespace Office

variable {o : Office} {request : Request}

/-- The request is to change the capacity of a section that does not exist. -/
def Misses (o : Office) (request : Request) : Prop :=
  ∃ key capacity, request = .resize key capacity ∧ o.registry.catalog.lookup key = none

lemma announces_iff : o.announces request = true ↔ ¬ o.Misses request := by
  constructor
  · rintro h ⟨key, capacity, rfl, missing⟩
    simp [announces, missing] at h
  · intro h
    cases request with
    | resize key capacity =>
      exact Option.isSome_iff_ne_none.2 fun missing => h ⟨key, capacity, rfl, missing⟩
    | _ => rfl

/-- **Reporting adds one event to what a failed request has brought about, and nothing else.** -/
lemma handle_reported (cancelled : Bool) (found : ¬ o.Misses request) :
    let plain := o.carry cancelled (o.decide request)
    o.handle cancelled request =
      ({ plain.1 with events := plain.1.events ++
          plain.1.outcome.cause?.toList.map (.failed request.action request.subject) },
        plain.2) := by
  intro plain
  rw [← Report.announcing_eq]
  unfold handle
  rw [announces_iff.2 found]
  rfl

/-- A change of capacity of a section that does not exist fails before anything can be reported. -/
lemma handle_of_misses (cancelled : Bool) (h : o.Misses request) :
    o.handle cancelled request = (⟨.failed .unknownSection, [], [], []⟩, o) := by
  have hsilent : o.announces request = false := Bool.eq_false_iff.2 fun ha => announces_iff.1 ha h
  obtain ⟨key, capacity, rfl, missing⟩ := h
  have hdecide : o.decide (.resize key capacity) = .error (.failed .unknownSection []) := by
    simp only [Office.decide, Registry.offered, missing]
    rfl
  unfold handle carry
  rw [hsilent, hdecide]
  rfl

/-- Reporting leaves the outcome as it is. -/
lemma outcome_handle (o : Office) (cancelled : Bool) (request : Request) :
    (o.handle cancelled request).1.outcome =
      (o.carry cancelled (o.decide request)).1.outcome := by
  obtain ⟨events, he⟩ := handle_eq o cancelled request
  rw [he]
  rfl

lemma carry_quiet (o : Office) (cancelled : Bool) (request : Request) :
    Event.Quiet (o.carry cancelled (o.decide request)).1.events :=
  execute_quiet cancelled (o.decide_endsQuietly request) o.registry o.outbox

end Office

/-! ## Alarms -/

/-- How a failure of the call is reported, if it is. -/
def Call.report? : Call → Failure → Option Event
  | .request _ asked, cause => some (.failed asked.action asked.subject cause)
  | .query (.courses id), cause => some (.failed .listCourses (.student id) cause)
  | .query _, _ => none

/-- Everything that was reported, in order. -/
def Report.log {α : Type} (reports : List (Report α)) : List Event :=
  reports.flatMap (·.events)

/-- If the check fails, nothing is noted and the failure is not grave.  So it is with all queries
but the one for a student's courses, and their failures need no report. -/
def Check.Lenient {α : Type} (x : Check α) : Prop :=
  ∀ cause notes, x = .error (.failed cause notes) → notes = [] ∧ cause.isGrave = false

namespace Check.Lenient

variable {α β : Type}

lemma ok (a : α) : Lenient (.ok a) :=
  fun _ _ h => by cases h

lemma expect {a : Option α} {cause : Failure} (h : cause.isGrave = false) :
    (Check.expect a cause).Lenient := by
  intro cause' notes he
  obtain ⟨-, hhalt⟩ := expect_eq_error.1 he
  cases hhalt
  exact ⟨rfl, h⟩

lemma bind {x : Check α} {f : α → Check β} (hx : x.Lenient) (hf : ∀ a, (f a).Lenient) :
    Lenient (x >>= f) := by
  intro cause notes h
  rcases bind_eq_error.1 h with h | ⟨a, -, h⟩
  · exact hx cause notes h
  · exact hf a cause notes h

end Check.Lenient

namespace Registry

variable {r : Registry}

lemma student_lenient {id : StudentId} : (r.student id).Lenient :=
  .expect rfl

lemma offered_lenient {key : SectionKey} : (r.offered key).Lenient :=
  .expect rfl

end Registry

namespace Office

/-- The calls of a run that failed, in order, each with the cause. -/
def failures (o : Office) : List Turn → List (Call × Failure)
  | [] => []
  | .call call :: rest =>
    let (report, o') := o.serve call
    report.outcome.cause?.toList.map (fun cause => (call, cause)) ++ o'.failures rest
  | t :: rest => (o.turn t).2.failures rest

/-- Among quiet events and the report of a failure, the alarms are that report, if the failure is
grave. -/
lemma filter_isAlarm_reported {events : List Event} (quiet : Event.Quiet events) (action : Action)
    (subject : Subject) (cause : Option Failure) :
    (events ++ cause.toList.map (Event.failed action subject)).filter Event.isAlarm =
      (cause.toList.filter Failure.isGrave).map (Event.failed action subject) := by
  rw [List.filter_append, quiet.filter_isAlarm, List.nil_append, List.filter_map]
  congr 2
  funext cause
  exact Event.isAlarm_failed

lemma query_quiet {α : Type} {x : Check α} (h : x.EndsQuietly fun _ => True) :
    Event.Quiet (query x).events := by
  rcases x with (⟨cause, notes⟩ | _) | a
  · exact h
  · exact Event.quiet_nil
  · exact Event.quiet_nil

lemma query_lenient {α : Type} {x : Check α} (h : x.Lenient) :
    (query x).events = [] ∧ (query x).outcome.cause?.toList.filter Failure.isGrave = [] := by
  rcases x with (⟨cause, notes⟩ | _) | a
  · obtain ⟨rfl, hlenient⟩ := h cause notes rfl
    exact ⟨rfl, List.filter_cons_of_neg (Bool.eq_false_iff.1 hlenient)⟩
  · exact ⟨rfl, rfl⟩
  · exact ⟨rfl, rfl⟩

/-- What is neither reported nor grave causes no alarm. -/
lemma alarms_of_lenient {α : Type} {x : Check α} (h : x.Lenient) (f : α → Response)
    (report? : Failure → Option Event) :
    (((query x).map f).events.filter Event.isAlarm).map some =
      (((query x).map f).outcome.cause?.toList.filter Failure.isGrave).map report? := by
  obtain ⟨hevents, hcause⟩ := query_lenient h
  show ((query x).events.filter _).map _ = (((query x).outcome.map f).cause?.toList.filter _).map _
  rw [Outcome.cause?_map, hevents, hcause]
  rfl

/-- The alarms of a call are its grave failure. -/
lemma alarms_serve (o : Office) (call : Call) :
    ((o.serve call).1.events.filter Event.isAlarm).map some =
      ((o.serve call).1.outcome.cause?.toList.filter Failure.isGrave).map call.report? := by
  cases call with
  | request cancelled request =>
    show ((o.handle cancelled request).1.events.filter _).map _ =
      (((o.handle cancelled request).1.outcome.map Response.met).cause?.toList.filter _).map _
    rw [Outcome.cause?_map]
    by_cases h : o.Misses request
    · rw [handle_of_misses cancelled h]
      rfl
    · rw [handle_reported cancelled h, filter_isAlarm_reported (o.carry_quiet cancelled request),
        List.map_map]
      rfl
  | query q =>
    cases q with
    | courses id =>
      show (((query (o.registry.coursesOf id)).announcing _ _).events.filter _).map _ =
        ((((query (o.registry.coursesOf id)).announcing _ _).outcome.map
          Response.courses).cause?.toList.filter _).map _
      rw [Outcome.cause?_map, Report.announcing_eq,
        filter_isAlarm_reported (query_quiet Registry.coursesOf_endsQuietly), List.map_map]
      rfl
    | summary id => exact alarms_of_lenient Registry.student_lenient _ _
    | roster key => exact alarms_of_lenient (Registry.offered_lenient.bind fun _ => .ok _) _ _
    | offerings department => exact alarms_of_lenient (.ok _) _ _
    | window id => exact alarms_of_lenient (Registry.student_lenient.bind fun _ => .ok _) _ _

lemma log_run_call (o : Office) (call : Call) (rest : List Turn) :
    Report.log (o.run (.call call :: rest)).1 =
      (o.serve call).1.events ++ Report.log ((o.serve call).2.run rest).1 :=
  rfl

lemma failures_call (o : Office) (call : Call) (rest : List Turn) :
    o.failures (.call call :: rest) =
      (o.serve call).1.outcome.cause?.toList.map (Prod.mk call) ++
        (o.serve call).2.failures rest :=
  rfl

/-- **The warnings and errors of a run are its grave failures**, each reported once, in order. -/
theorem alarms_run (o : Office) (turns : List Turn) :
    ((Report.log (o.run turns).1).filter Event.isAlarm).map some =
      ((o.failures turns).filter fun f => f.2.isGrave).map fun f => f.1.report? f.2 := by
  induction turns generalizing o with
  | nil => rfl
  | cons t rest ih =>
    cases t with
    | call call =>
      have hcall : (((o.serve call).1.outcome.cause?.toList.map (Prod.mk call)).filter
          fun f => f.2.isGrave).map (fun f => f.1.report? f.2) =
            ((o.serve call).1.outcome.cause?.toList.filter Failure.isGrave).map call.report? := by
        rw [List.filter_map, List.map_map]
        rfl
      rw [log_run_call, failures_call, List.filter_append, List.map_append, List.filter_append,
        List.map_append, hcall, alarms_serve, ih]
    | examTime ref time => exact ih _
    | clock now => exact ih _
    | outbox outbox => exact ih _

/-- **Every failed request is reported once, last, and at the level of its cause**, and reporting
changes nothing: whatever the state of the office, and whatever the journal does.  What is met, or
abandoned, is not reported as a failure.  Only if the capacity of a section is to be changed that
does not exist, the failure is not reported; that is never a warning or an error.  So in every run
the warnings and errors are, one by one and in order, the failures that come from the journal or
from a fault. -/
theorem failures_reported (o : Office) :
    (∀ (cancelled : Bool) (request : Request),
      let plain := o.carry cancelled (o.decide request)
      let served := o.handle cancelled request
      (∀ e ∈ plain.1.events, e.isFailure = false) ∧
      (∀ cause, served.1.outcome = .failed cause →
        (∀ key capacity, request = .resize key capacity →
          o.registry.catalog.lookup key ≠ none) →
        ∃ e, e.Announces request.action request.subject cause ∧
          served = ({ plain.1 with events := plain.1.events ++ [e] }, plain.2)) ∧
      ((∀ cause, served.1.outcome ≠ .failed cause) → served = plain) ∧
      ∀ key capacity, request = .resize key capacity → o.registry.catalog.lookup key = none →
        served = (⟨.failed .unknownSection, [], [], []⟩, o)) ∧
    ∀ turns : List Turn,
      ((Report.log (o.run turns).1).filter Event.isAlarm).map some =
        ((o.failures turns).filter fun f => f.2.isGrave).map fun f => f.1.report? f.2 := by
  refine ⟨fun cancelled request => ?_, o.alarms_run⟩
  intro plain served
  have houtcome : served.1.outcome = plain.1.outcome := o.outcome_handle cancelled request
  refine ⟨o.carry_quiet cancelled request, ?_, ?_, ?_⟩
  · intro cause hfailed found
    have hfound : ¬ o.Misses request := by
      rintro ⟨key, capacity, hrequest, missing⟩
      exact found key capacity hrequest missing
    have hcause : plain.1.outcome.cause? = some cause :=
      Outcome.cause?_eq_some_iff.2 (houtcome.symm.trans hfailed)
    have hserved : served = _ := handle_reported cancelled hfound
    rw [hcause] at hserved
    exact ⟨_, Event.announces_failed, hserved⟩
  · intro hnot
    have hfound : ¬ o.Misses request := fun h =>
      hnot .unknownSection (congrArg (·.1.outcome) (handle_of_misses cancelled h))
    have hcause : plain.1.outcome.cause? = none :=
      Outcome.cause?_eq_none_iff.2 fun cause h => hnot cause (houtcome.trans h)
    have hserved : served = _ := handle_reported cancelled hfound
    rw [hserved, hcause]
    show (({ plain.1 with events := plain.1.events ++ [] } : Report Answer), plain.2) = plain
    rw [List.append_nil]
  · intro key capacity hrequest missing
    exact handle_of_misses cancelled ⟨key, capacity, hrequest, missing⟩

/-- The journal takes a third seat for student 3 and then closes, which is a warning; in a registry
without sections, student 1 holds what is not there, which is an error.  The rejections after the
warning are no alarms. -/
theorem failures_reported_small :
    let o : Office := ⟨.small, .epoch, .script ⟨[.accept], .refuse .closed⟩⟩
    let bare : Office := ⟨{ Registry.small with catalog := .empty }, .epoch, .script .accepting⟩
    let turns : List Turn := [
      .call (.request false (.staffEnroll ⟨3⟩ ⟨⟨100⟩, ⟨1⟩⟩)),
      .call (.request false (.staffDrop ⟨3⟩ ⟨100⟩)),
      .call (.request false (.resize ⟨⟨100⟩, ⟨9⟩⟩ 5))]
    (∃ e, e.Announces .staffEnroll (.studentCourse ⟨3⟩ ⟨100⟩) (.journal .closed) ∧
      (o.handle false (.staffEnroll ⟨3⟩ ⟨⟨100⟩, ⟨1⟩⟩)).1.events =
        [.raised ⟨⟨100⟩, ⟨1⟩⟩ 2, e]) ∧
    (∃ e, e.Announces .staffDrop (.studentCourse ⟨1⟩ ⟨100⟩)
        (.fault (.sectionMissing ⟨1⟩ ⟨⟨100⟩, ⟨1⟩⟩)) ∧
      (bare.handle false (.staffDrop ⟨1⟩ ⟨100⟩)).1.events = [e]) ∧
    ((Report.log (o.run turns).1).filter Event.isAlarm).map some =
      [some (.failed .staffEnroll (.studentCourse ⟨3⟩ ⟨100⟩) (.journal .closed))] := by
  intro o bare turns
  obtain ⟨requests, alarms⟩ := failures_reported o
  obtain ⟨e, he, hserved⟩ :=
    (requests false (.staffEnroll ⟨3⟩ ⟨⟨100⟩, ⟨1⟩⟩)).2.1 (.journal .closed) rfl nofun
  obtain ⟨e', he', hserved'⟩ :=
    ((failures_reported bare).1 false (.staffDrop ⟨1⟩ ⟨100⟩)).2.1 _ rfl nofun
  exact ⟨⟨e, he, congrArg (·.1.events) hserved⟩, ⟨e', he', congrArg (·.1.events) hserved'⟩,
    (alarms turns).trans rfl⟩

/-- A change of capacity fails because the section does not exist, and nothing is reported. -/
theorem missing_section_unreported :
    let o : Office := ⟨.small, .epoch, .script .accepting⟩
    let report := (o.handle false (.resize ⟨⟨100⟩, ⟨9⟩⟩ 5)).1
    Snapshot.small.build = .ok o.registry ∧ report.outcome = .failed .unknownSection ∧
      report.events = [] :=
  ⟨rfl, rfl, rfl⟩

end Office

end CourseRegistration
