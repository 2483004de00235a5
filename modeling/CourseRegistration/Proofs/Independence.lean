import CourseRegistration.Proofs.Bystanders
import Mathlib.Logic.Function.Conjugate

/-!
# Requests that have nothing to do with each other

A request of a student changes sections of one course and this student; everyone else who is moved
by it, such as the head of a waitlist, is moved within a section.  So what it does to a registry is
`Confined` to a course and a student.  Of other courses it reads the times only, to find conflicts,
and no request changes these.

Hence a request is decided in the same way before and after one that is confined to another course
and another student, and its changes are the same changes of the changed registry (`decide_apart`).
It is here, in the decisions, that all ways to fail are looked at.  Two such requests can be served
in either order (`requests_commute`).
-/

namespace CourseRegistration

open Journal Check

/-- The course that is named in the request. -/
def Request.course : Request → CourseId
  | enroll _ key | switchGroup _ key | staffEnroll _ key | resize key _ => key.course
  | drop _ course | staffDrop _ course => course

namespace Registry

/-! ## Changes of one course and one student -/

/-- The function puts sections in places of one course and, if one is given, puts the student. -/
inductive Confined (course : CourseId) (student? : Option StudentId) :
    (Registry → Registry) → Prop
  | same : Confined course student? fun r => r
  | putSection {f ref s} (hf : Confined course student? f) (hcourse : ref.course = course) :
      Confined course student? fun r => (f r).putSection ref s
  | putStudent {f s} (hf : Confined course student? f) (hstudent : student? = some s.id) :
      Confined course student? fun r => (f r).putStudent s

variable {r r' : Registry} {now : Instant} {request : Request} {records : List Record}
  {f g : Registry → Registry} {course course' : CourseId} {student? student?' : Option StudentId}
  {id : StudentId} {key : SectionKey} {ref : Catalog.Ref} {student : Student} {s : Section}

namespace Confined

/-- Other courses are left alone. -/
lemma groups_eq (hf : Confined course student? f) (hcourse : course' ≠ course) (r : Registry) :
    (f r).catalog.groups course' = r.catalog.groups course' := by
  induction hf with
  | same => rfl
  | putSection hf hin ih =>
    refine (Catalog.groups_set _ _ _ _).trans ?_
    rw [if_neg (hin ▸ hcourse), ih]
  | putStudent hf _ ih => exact ih

lemma lookup_eq (hf : Confined course student? f) (hcourse : key.course ≠ course) (r : Registry) :
    (f r).catalog.lookup key = r.catalog.lookup key :=
  Catalog.lookup_congr (hf.groups_eq hcourse r)

/-- Other students are left alone. -/
lemma get?_students_eq (hf : Confined course student? f) (hid : student? ≠ some id)
    (r : Registry) : (f r).students.get? id = r.students.get? id := by
  induction hf with
  | same => rfl
  | putSection hf _ ih => exact ih
  | @putStudent f s hf hin ih =>
    have hne : id ≠ s.id := fun h => hid (h ▸ hin)
    exact (OrderedMap.get?_insert_of_ne _ _ hne).trans ih

lemma putSection_comm (hf : Confined course student? f) (hcourse : ref.course ≠ course)
    (r : Registry) (s : Section) : f (r.putSection ref s) = (f r).putSection ref s := by
  induction hf with
  | same => rfl
  | @putSection f ref' s' hf hin ih =>
    simp only [ih]
    exact congrArg (fun c => { f r with catalog := c })
      (Catalog.set_comm _ (hin ▸ hcourse) s s')
  | putStudent hf _ ih =>
    simp only [ih]
    rfl

lemma putStudent_comm (hf : Confined course student? f) (hid : student? ≠ some student.id)
    (r : Registry) : f (r.putStudent student) = (f r).putStudent student := by
  induction hf with
  | same => rfl
  | putSection hf _ ih =>
    simp only [ih]
    rfl
  | @putStudent f s hf hin ih =>
    have hne : student.id ≠ s.id := fun h => hid (h ▸ hin)
    simp only [ih]
    exact congrArg (fun m => { f r with students := m })
      (OrderedMap.insert_comm _ hne student s)

/-- Changes of different courses and different students can be made in either order. -/
lemma comm (hf : Confined course student? f) (hg : Confined course' student?' g)
    (hcourse : course' ≠ course) (hstudent : ∀ id, student?' = some id → student? ≠ some id)
    (r : Registry) : f (g r) = g (f r) := by
  induction hg with
  | same => rfl
  | putSection hg hin ih =>
    rw [hf.putSection_comm (hin ▸ hcourse), ih]
  | putStudent hg hin ih =>
    rw [hf.putStudent_comm (hstudent _ hin), ih]

end Confined

/-! ## What a request changes and what it reads elsewhere -/

/-- What conflicts with a section depend on: the time of its exam and its hours. -/
def times (r : Registry) (key : SectionKey) : Option (Int64 × WeeklyHours) :=
  (r.catalog.lookup key).map fun (_, s) => (s.examTime, s.hours)

/-- No request changes the times of a section. -/
lemma Effect.times_eq (h : r.Effect now request records r') (key : SectionKey) :
    r'.times key = r.times key := by
  refine h.catalog_keeps (P := fun c =>
    ((c.lookup key).map fun (_, s) => (s.examTime, s.hours)) = r.times key) ?_ rfl
  intro c ref s seats hget hc
  have hfind : (c.set ref (s.withSeats seats)).find? key = c.find? key :=
    Catalog.find?_set hget (rfl : (s.withSeats seats).key.group = s.key.group) key
  rw [← hc, Catalog.lookup, Catalog.lookup, hfind]
  cases c.find? key with
  | none => rfl
  | some ref' =>
    simp only [Option.bind_some, Catalog.get?_set hget, Option.map_map]
    split_ifs with hsame
    · rw [hsame, hget]
      rfl
    · rfl

/-- **A request changes its own course and its own student only.** -/
theorem Effect.confined (h : r.Effect now request records r')
    (filed : ∀ {id student}, r.students.get? id = some student → student.id = id) :
    ∃ f, r' = f r ∧ Confined request.course request.student? f := by
  -- all but one of the changes of a student come with those of one section
  have settle : ∀ {key ref s t id} {student student' : Student},
      r.catalog.lookup key = some (ref, s) → r.students.get? id = some student →
      student'.id = student.id → ∃ f, (r.putSection ref t).putStudent student' = f r ∧
        Confined key.course (some id) f := by
    intro key ref s t id student student' found known hsame
    refine ⟨fun r => (r.putSection ref t).putStudent student', rfl, .putStudent ?_ ?_⟩
    · exact .putSection .same (Catalog.course_of_lookup found)
    · rw [hsame, filed known]
  cases h with
  | nothing => exact ⟨_, rfl, .same⟩
  | enroll known _ found => exact settle found known rfl
  | drop known _ _ _ found => exact settle found known rfl
  | @switchGroup id key student group ref source ref' destination total place known _ _ _ _ found
      found' =>
    have hsource := Catalog.course_of_lookup found
    refine ⟨fun r => ((r.putSection ref _).putSection ref' _).putStudent _, rfl, .putStudent ?_ ?_⟩
    · exact .putSection (.putSection .same hsource) (Catalog.course_of_lookup found')
    · exact congrArg some (filed known).symm
  | staffEnroll known found => exact settle found known rfl
  | raise _ found => exact ⟨_, rfl, .putSection .same (Catalog.course_of_lookup found)⟩
  | raiseAndEnroll known found => exact settle found known rfl
  | staffDrop known _ found => exact settle found known rfl
  | resize found => exact ⟨_, rfl, .putSection .same (Catalog.course_of_lookup found)⟩

/-- Conflicts are found by the times of the held sections. -/
lemma checkClashes_congr (h : ∀ key, r'.times key = r.times key) (wanted : Section)
    (keys : List SectionKey) : r'.checkClashes id wanted keys = r.checkClashes id wanted keys := by
  induction keys with
  | nil => rfl
  | cons key rest ih =>
    have hkey := h key
    unfold times at hkey
    simp only [checkClashes, heldSection, ih]
    cases found : r.catalog.lookup key with
    | none =>
      rw [found, Option.map_none, Option.map_eq_none_iff] at hkey
      rw [hkey]
    | some p =>
      obtain ⟨ref, s⟩ := p
      rw [found, Option.map_some, Option.map_eq_some_iff] at hkey
      obtain ⟨⟨ref', s'⟩, found', htimes⟩ := hkey
      obtain ⟨hexam, hhours⟩ := Prod.mk.inj htimes
      rw [found']
      simp only [expect, ok_bind, hexam, hhours]

end Registry

/-! ## The same plan for a changed registry -/

/-- The same plan in another state, to which `f` takes every state that it leads to. -/
def Plan.map {σ τ α : Type} (f : σ → τ) (p : Plan σ α) : Plan τ α :=
  ⟨p.changes.map (·.map f), p.answer⟩

/-- Placing results in a larger state and changing that state can be done in either order. -/
lemma Change.mapAll_map {τ : Type} {f meanwhile atEnd : τ → τ}
    (hmeanwhile : Function.Commute meanwhile f) (hend : Function.Commute atEnd f) :
    ∀ changes : List (Change τ), mapAll meanwhile atEnd (changes.map (·.map f)) =
      (mapAll meanwhile atEnd changes).map (·.map f)
  | [] => rfl
  | [c] => by simp only [List.map_cons, List.map_nil, mapAll, map, hend c.result]
  | c :: d :: rest => by
    have ih := mapAll_map hmeanwhile hend (d :: rest)
    simp only [List.map_cons, mapAll] at ih ⊢
    rw [ih]
    simp only [map, hmeanwhile c.result]

namespace Registry

variable {r : Registry} {f : Registry → Registry} {now : Instant} {course : CourseId}
  {student? : Option StudentId} {id : StudentId} {key : SectionKey} {ref ref' : Catalog.Ref}
  {student : Student}

namespace Confined

lemma student_eq (hf : Confined course student? f) (hid : student? ≠ some id) :
    (f r).student id = r.student id := by
  rw [Registry.student, hf.get?_students_eq hid, Registry.student]

lemma offered_eq (hf : Confined course student? f) (hcourse : key.course ≠ course) :
    (f r).offered key = r.offered key := by
  rw [offered, hf.lookup_eq hcourse, offered]

lemma heldSection_eq (hf : Confined course student? f) (hcourse : key.course ≠ course) :
    (f r).heldSection id key = r.heldSection id key := by
  rw [heldSection, hf.lookup_eq hcourse, heldSection]

lemma atSection_eq {α : Type} (hf : Confined course student? f) (hcourse : ref.course ≠ course)
    (p : Plan Section α) : (f r).atSection ref p = (r.atSection ref p).map f := by
  simp only [atSection, Plan.map, List.map_map, Function.comp_def, Change.map,
    hf.putSection_comm hcourse]

lemma atSections_eq {α : Type} (hf : Confined course student? f) (hcourse : ref.course ≠ course)
    (hcourse' : ref'.course ≠ course) (p : Plan (Section × Section) α) :
    (f r).atSections ref ref' p = (r.atSections ref ref' p).map f := by
  simp only [atSections, Plan.map, List.map_map, Function.comp_def, Change.map,
    hf.putSection_comm hcourse, hf.putSection_comm hcourse']

lemma settle_eq {α : Type} (hf : Confined course student? f) (hid : student? ≠ some student.id)
    (p : Plan Registry α) : (p.map f).settle student = (p.settle student).map f := by
  have hend : Function.Commute (Registry.putStudent · student) f := fun r =>
    (hf.putStudent_comm hid r).symm
  exact congrArg (Plan.mk · ()) (Change.mapAll_map .id_left hend p.changes)

end Confined

/-! ## The same decision -/

section

variable (hf : Confined course student? f) (htimes : ∀ key, (f r).times key = r.times key)
  (filed : ∀ {id student}, r.students.get? id = some student → student.id = id)

include hf filed

include htimes in
lemma enroll_apart (hcourse : key.course ≠ course) (hid : student? ≠ some id) :
    (f r).enroll now id key = (r.enroll now id key).map (Plan.map f) := by
  refine bind_map_congr (hf.student_eq hid) fun student known => ?_
  obtain rfl := filed (student_eq_ok.1 known)
  refine bind_map_congr rfl fun _ _ => ?_
  refine bind_map_congr (hf.offered_eq hcourse) fun (ref, wanted) found => ?_
  have href := Catalog.course_of_lookup (offered_eq_ok.1 found)
  refine bind_map_congr rfl fun _ _ => ?_
  refine bind_map_congr rfl fun units _ => ?_
  refine bind_map_congr rfl fun _ _ => ?_
  refine bind_map_congr rfl fun _ _ => ?_
  refine bind_map_congr (checkClashes_congr htimes wanted _) fun _ _ => ?_
  refine bind_map_congr rfl fun plan _ => ?_
  refine bind_map_congr rfl fun _ _ => ?_
  have hid' : student? ≠ some (student.hold key units).id := hid
  rw [hf.atSection_eq (href ▸ hcourse), hf.settle_eq hid']
  rfl

omit filed in
/-- Whatever else happens to the student, it must leave the student's number alone. -/
lemma releaseCourse_apart {wanted : CourseId} {after : Student → Student}
    (hafter : ∀ s, (after s).id = s.id) (hcourse : wanted ≠ course)
    (hid : student? ≠ some student.id) :
    (f r).releaseCourse student wanted after =
      (r.releaseCourse student wanted after).map (Plan.map f) := by
  refine bind_map_congr rfl fun group _ => ?_
  refine bind_map_congr (hf.heldSection_eq hcourse) fun (ref, held) found => ?_
  have href : ref.course = wanted := Catalog.course_of_lookup (heldSection_eq_ok.1 found)
  refine bind_map_congr rfl fun plan _ => ?_
  rw [hf.atSection_eq (href ▸ hcourse), hf.settle_eq ((hafter _).symm ▸ hid)]
  rfl

lemma drop_apart {wanted : CourseId} (hcourse : wanted ≠ course) (hid : student? ≠ some id) :
    (f r).drop now id wanted = (r.drop now id wanted).map (Plan.map f) := by
  refine bind_map_congr (hf.student_eq hid) fun student known => ?_
  obtain rfl := filed (student_eq_ok.1 known)
  refine bind_map_congr rfl fun _ _ => ?_
  refine bind_map_congr rfl fun _ _ => ?_
  exact releaseCourse_apart hf (fun _ => rfl) hcourse hid

include htimes in
lemma switchGroup_apart (hcourse : key.course ≠ course) (hid : student? ≠ some id) :
    (f r).switchGroup now id key = (r.switchGroup now id key).map (Plan.map f) := by
  refine bind_map_congr (hf.student_eq hid) fun student known => ?_
  obtain rfl := filed (student_eq_ok.1 known)
  refine bind_map_congr rfl fun _ _ => ?_
  refine bind_map_congr rfl fun _ _ => ?_
  refine bind_map_congr rfl fun group _ => ?_
  refine bind_map_congr rfl fun _ _ => ?_
  refine bind_map_congr (hf.heldSection_eq hcourse) fun (ref, source) found => ?_
  have href := Catalog.course_of_lookup (heldSection_eq_ok.1 found)
  refine bind_map_congr (hf.offered_eq hcourse) fun (ref', destination) found' => ?_
  have href' := Catalog.course_of_lookup (offered_eq_ok.1 found')
  refine bind_map_congr rfl fun _ _ => ?_
  refine bind_map_congr rfl fun total _ => ?_
  refine bind_map_congr rfl fun _ _ => ?_
  refine bind_map_congr (checkClashes_congr htimes destination _) fun _ _ => ?_
  refine bind_map_congr rfl fun plan _ => ?_
  refine bind_map_congr rfl fun _ _ => ?_
  have hid' : student? ≠ some
      (student.hold key (Student.subUnits total source.units)).spendAction.id := hid
  rw [hf.atSections_eq (href ▸ hcourse) (href' ▸ hcourse), hf.settle_eq hid']
  rfl

lemma staffEnroll_apart (hcourse : key.course ≠ course) (hid : student? ≠ some id) :
    (f r).staffEnroll id key = (r.staffEnroll id key).map (Plan.map f) := by
  refine bind_map_congr (hf.student_eq hid) fun student known => ?_
  obtain rfl := filed (student_eq_ok.1 known)
  refine bind_map_congr (hf.offered_eq hcourse) fun (ref, wanted) found => ?_
  have href := Catalog.course_of_lookup (offered_eq_ok.1 found)
  refine bind_map_congr rfl fun _ _ => ?_
  refine bind_map_congr rfl fun plan _ => ?_
  dsimp only
  have hid' : student? ≠ some
      (student.hold key (Student.addUnits student.units wanted.units)).id := hid
  rw [hf.atSection_eq (href ▸ hcourse), hf.settle_eq hid']
  rfl

lemma staffDrop_apart {wanted : CourseId} (hcourse : wanted ≠ course)
    (hid : student? ≠ some id) :
    (f r).staffDrop id wanted = (r.staffDrop id wanted).map (Plan.map f) := by
  refine bind_map_congr (hf.student_eq hid) fun student known => ?_
  obtain rfl := filed (student_eq_ok.1 known)
  exact releaseCourse_apart hf (fun _ => rfl) hcourse hid

omit filed in
lemma resize_apart {s : Section} {capacity : UInt64} (hcourse : ref.course ≠ course) :
    (f r).resize ref s capacity = (r.resize ref s capacity).map (Plan.map f) := by
  refine bind_map_congr rfl fun plan _ => ?_
  rw [hf.atSection_eq hcourse]
  rfl

end

end Registry

/-- How the answer is put does not matter. -/
lemma Plan.answering_apart {α : Type} {f : Registry → Registry} {x x' : Check (Plan Registry α)}
    (h : x' = x.map (Plan.map f)) (g : α → Answer) :
    (x' >>= fun p => pure (p.answering g)) =
      (x >>= fun p => (pure (p.answering g) : Check (Plan Registry Answer))).map (Plan.map f) := by
  subst h
  cases x <;> rfl

namespace Office

variable {o o' : Office} {request request' : Request} {f : Registry → Registry}
  {course : CourseId} {student? : Option StudentId}

/-- **A request is decided alike before and after a change of another course and another student**,
and comes down to the same plan. -/
theorem decide_apart (hf : Registry.Confined course student? f)
    (htimes : ∀ key, (f o.registry).times key = o.registry.times key)
    (filed : ∀ {id student}, o.registry.students.get? id = some student → student.id = id)
    (hcourse : request.course ≠ course)
    (hstudent : ∀ id, request.student? = some id → student? ≠ some id)
    (hregistry : o'.registry = f o.registry) (hclock : o'.clock = o.clock) :
    o'.decide request = (o.decide request).map (Plan.map f) := by
  obtain ⟨_, _, outbox⟩ := o'
  subst hregistry hclock
  cases request with
  | enroll id key =>
    exact Plan.answering_apart
      (Registry.enroll_apart hf htimes filed hcourse (hstudent id rfl)) _
  | drop id wanted =>
    exact Plan.answering_apart (Registry.drop_apart hf filed hcourse (hstudent id rfl)) _
  | switchGroup id key =>
    exact Plan.answering_apart
      (Registry.switchGroup_apart hf htimes filed hcourse (hstudent id rfl)) _
  | staffEnroll id key =>
    exact Plan.answering_apart (Registry.staffEnroll_apart hf filed hcourse (hstudent id rfl)) _
  | staffDrop id wanted =>
    exact Plan.answering_apart (Registry.staffDrop_apart hf filed hcourse (hstudent id rfl)) _
  | resize key capacity =>
    refine bind_map_congr (hf.offered_eq hcourse) fun (ref, s) found => ?_
    have href := Catalog.course_of_lookup (Registry.offered_eq_ok.1 found)
    exact Plan.answering_apart (Registry.resize_apart hf (href ▸ hcourse)) _

end Office

/-! ## Outboxes that take everything -/

/-- The outbox takes every record that is ever offered to it. -/
def Journal.Outbox.TakesAll : Outbox → Prop
  | .script s => (∀ cue ∈ s.cues, cue = .accept) ∧ s.afterwards = .accept
  | .channel _ => False

lemma Journal.Outbox.TakesAll.offer {o : Outbox} (h : o.TakesAll) (cancelled : Bool) (r : Record) :
    ∃ o' : Outbox, o.offer cancelled r = (.taken, o') ∧ o'.TakesAll := by
  cases o with
  | channel c => exact h.elim
  | script s =>
    obtain ⟨cues, afterwards⟩ := s
    obtain ⟨hcues, rfl⟩ := h
    cases cues with
    | nil => exact ⟨_, rfl, hcues, rfl⟩
    | cons cue rest =>
      obtain rfl := hcues cue List.mem_cons_self
      exact ⟨_, rfl, fun cue hcue => hcues cue (List.mem_cons_of_mem _ hcue), rfl⟩

section

variable {σ α : Type} {o : Outbox}

/-- Then all changes are made. -/
lemma carryOut_of_takesAll (h : o.TakesAll) (cancelled : Bool) (changes : List (Change σ)) (s : σ) :
    ∃ o' : Outbox, o'.TakesAll ∧ carryOut cancelled changes s o =
      ⟨Change.after changes s, o', changes.map (·.record), [], changes.map (·.event), none⟩ := by
  induction changes generalizing s o with
  | nil => exact ⟨o, h, rfl⟩
  | cons c rest ih =>
    obtain ⟨o', hoffer, h'⟩ := h.offer cancelled c.record
    obtain ⟨o'', h'', hrest⟩ := ih h' c.result
    exact ⟨o'', h'', by simp only [carryOut, hoffer, hrest, Change.after, List.map_cons]⟩

/-- What is reported of a decision all of whose changes are made. -/
def Check.report : Check (Plan σ α) → Report α
  | .error (.failed cause notes) => .plain (.failed cause) notes
  | .error .overflow => .plain .overflow []
  | .ok plan => ⟨.done plan.answer, plan.changes.map (·.record), [], plan.changes.map (·.event)⟩

/-- The state once all changes of a decision are made. -/
def Check.result (decision : Check (Plan σ α)) (s : σ) : σ :=
  match decision with
  | .error _ => s
  | .ok plan => Change.after plan.changes s

lemma execute_of_takesAll (h : o.TakesAll) (cancelled : Bool) (decision : Check (Plan σ α))
    (s : σ) : ∃ o' : Outbox, o'.TakesAll ∧
      execute cancelled decision s o = (report decision, result decision s, o') := by
  rcases decision with (⟨cause, notes⟩ | _) | plan
  · exact ⟨o, h, rfl⟩
  · exact ⟨o, h, rfl⟩
  · obtain ⟨o', h', hcarry⟩ := carryOut_of_takesAll h cancelled plan.changes s
    refine ⟨o', h', ?_⟩
    simp only [execute, hcarry]
    rfl

lemma Change.after_map (f : σ → σ) (changes : List (Change σ)) (s : σ) :
    after (changes.map (·.map f)) (f s) = f (after changes s) := by
  induction changes generalizing s with
  | nil => rfl
  | cons c rest ih => exact ih c.result

/-- The same plan is reported alike. -/
lemma Check.report_map (f : σ → σ) (decision : Check (Plan σ α)) :
    report (decision.map (Plan.map f)) = report decision := by
  rcases decision with (⟨cause, notes⟩ | _) | plan
  · rfl
  · rfl
  · simp [report, Except.map, Plan.map, Change.map, Function.comp_def]

lemma Check.result_map (f : σ → σ) (decision : Check (Plan σ α)) (s : σ) :
    result (decision.map (Plan.map f)) (f s) = f (result decision s) := by
  cases decision with
  | error halt => rfl
  | ok plan => exact Change.after_map f plan.changes s

end

/-! ## Requests in either order -/

namespace Office

variable {o o' : Office} {request request' : Request} {f : Registry → Registry}
  {course : CourseId} {student? : Option StudentId}

lemma handle_of_takesAll (h : o.outbox.TakesAll) (cancelled : Bool) (request : Request) :
    ∃ outbox : Outbox, outbox.TakesAll ∧ o.handle cancelled request =
      (if o.announces request then
          (report (o.decide request)).announcing request.action request.subject
        else report (o.decide request),
        { o with registry := result (o.decide request) o.registry, outbox := outbox }) := by
  obtain ⟨outbox, h', hexecute⟩ := execute_of_takesAll h cancelled (o.decide request) o.registry
  refine ⟨outbox, h', ?_⟩
  simp only [handle, carry, hexecute]
  split_ifs <;> rfl

lemma takesAll_handle (h : o.outbox.TakesAll) (cancelled : Bool) (request : Request) :
    (o.handle cancelled request).2.clock = o.clock ∧
      (o.handle cancelled request).2.outbox.TakesAll := by
  obtain ⟨outbox, h', hhandle⟩ := handle_of_takesAll h cancelled request
  rw [hhandle]
  exact ⟨rfl, h'⟩

/-- **A request is served alike before and after a change of another course and student.** -/
theorem handle_apart (hf : Registry.Confined course student? f)
    (htimes : ∀ key, (f o.registry).times key = o.registry.times key)
    (filed : ∀ {id student}, o.registry.students.get? id = some student → student.id = id)
    (hcourse : request.course ≠ course)
    (hstudent : ∀ id, request.student? = some id → student? ≠ some id)
    (hregistry : o'.registry = f o.registry) (hclock : o'.clock = o.clock)
    (h : o.outbox.TakesAll) (h' : o'.outbox.TakesAll) (cancelled : Bool) :
    (o'.handle cancelled request).1 = (o.handle cancelled request).1 ∧
      (o'.handle cancelled request).2.registry = f (o.handle cancelled request).2.registry := by
  have hdecide : o'.decide request = (o.decide request).map (Plan.map f) :=
    decide_apart hf htimes filed hcourse hstudent hregistry hclock
  have hannounces : o'.announces request = o.announces request := by
    cases request with
    | resize key capacity =>
      simp only [announces, hregistry, hf.lookup_eq hcourse o.registry]
    | _ => rfl
  obtain ⟨_, -, hhandle⟩ := handle_of_takesAll h cancelled request
  obtain ⟨_, -, hhandle'⟩ := handle_of_takesAll h' cancelled request
  rw [hhandle, hhandle', hannounces, hdecide, report_map, hregistry, result_map]
  exact ⟨rfl, rfl⟩

/-- **Requests that name different courses and different students can be served in either order.**
Whatever the registry, the time, and an outbox that takes everything: each of the two requests is
answered alike, has the same records taken and the same events reported, whether it is served first
or second, and the registry is the same in the end.  A change of capacity names no student. -/
theorem requests_commute {r : Registry}
    (filed : ∀ {id student}, r.students.get? id = some student → student.id = id) (now : Instant)
    {outbox : Outbox} (accepting : outbox.TakesAll) (cancelled cancelled' : Bool)
    (hcourse : request.course ≠ request'.course)
    (hstudent : ∀ id, request.student? = some id → request'.student? ≠ some id) :
    let o : Office := ⟨r, now, outbox⟩
    let first := o.handle cancelled request
    let second := first.2.handle cancelled' request'
    let first' := o.handle cancelled' request'
    let second' := first'.2.handle cancelled request
    second'.1 = first.1 ∧ second.1 = first'.1 ∧ second.2.registry = second'.2.registry := by
  intro o first second first' second'
  obtain ⟨hclock, htakes⟩ := takesAll_handle (o := o) accepting cancelled request
  obtain ⟨hclock', htakes'⟩ := takesAll_handle (o := o) accepting cancelled' request'
  have effect := o.handle_effect cancelled request
  have effect' := o.handle_effect cancelled' request'
  obtain ⟨f, hf, confined⟩ := effect.confined filed
  obtain ⟨g, hg, confined'⟩ := effect'.confined filed
  have hsecond : second.1 = first'.1 ∧ second.2.registry = f first'.2.registry :=
    handle_apart confined (hf ▸ effect.times_eq) filed hcourse.symm
      (fun id h' h => hstudent id h h') hf hclock accepting htakes cancelled'
  have hsecond' : second'.1 = first.1 ∧ second'.2.registry = g first.2.registry :=
    handle_apart confined' (hg ▸ effect'.times_eq) filed hcourse
      (fun id h h' => hstudent id h h') hg hclock' accepting htakes' cancelled
  refine ⟨hsecond'.1, hsecond.1, ?_⟩
  calc second.2.registry
      = f (g r) := hsecond.2.trans (congrArg f hg)
    _ = g (f r) := confined.comm confined' hcourse.symm (fun id h' h => hstudent id h h') r
    _ = second'.2.registry := (hsecond'.2.trans (congrArg g hf)).symm

/-- The small registry with another course, which nobody takes yet. -/
def smallWithElective : Registry :=
  { Registry.small with catalog := Registry.small.catalog.add elective }
where
  /-- A group of the other course. -/
  elective : Section :=
    { key := ⟨⟨200⟩, ⟨1⟩⟩
      department := ⟨7⟩
      lecturer := "staff"
      units := 3
      examTime := 0
      hours := ⟨0⟩
      lock := .unlocked
      seats := .vacant 1 1 }

/-- Student 1 leaves group 1, where student 2 moves up; student 3 enrolls in the other course. -/
theorem requests_commute_small :
    let o : Office := ⟨smallWithElective, .epoch, .script .accepting⟩
    let first := o.handle false (.drop ⟨1⟩ ⟨100⟩)
    let first' := o.handle false (.enroll ⟨3⟩ ⟨⟨200⟩, ⟨1⟩⟩)
    first.1.outcome = .done .done ∧ first'.1.outcome = .done .done ∧
      (first'.2.handle false (.drop ⟨1⟩ ⟨100⟩)).2.registry =
        (first.2.handle false (.enroll ⟨3⟩ ⟨⟨200⟩, ⟨1⟩⟩)).2.registry := by
  have filed : ∀ {id student}, smallWithElective.students.get? id = some student →
      student.id = id :=
    (Snapshot.build_consistent Snapshot.small_build).sound.filed
  have accepting : (Outbox.script .accepting).TakesAll := ⟨nofun, rfl⟩
  have hcourse : (Request.drop ⟨1⟩ ⟨100⟩).course ≠
    (Request.enroll ⟨3⟩ ⟨⟨200⟩, ⟨1⟩⟩).course := by decide
  have hstudent : ∀ id, (Request.drop ⟨1⟩ ⟨100⟩).student? = some id →
      (Request.enroll ⟨3⟩ ⟨⟨200⟩, ⟨1⟩⟩).student? ≠ some id := by
    rintro _ ⟨⟩
    decide
  obtain ⟨-, -, hregistry⟩ :=
    requests_commute filed .epoch accepting false false hcourse hstudent
  exact ⟨rfl, rfl, hregistry.symm⟩

end Office

end CourseRegistration
