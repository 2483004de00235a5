import CourseRegistration.Proofs.Bystanders
import CourseRegistration.Proofs.Units

/-!
# What the journal tells about a student

A reader of the journal who knows the units of the sections can keep an `Account` of every student:
the held courses, the total of units, and how many actions are left.  Courses and units come out
right.  For the actions the reader has only the rule that a course given up or changed costs one,
and there the journal says too little: a course that staff drop is recorded in the same way and
costs nothing (`equal_journals_unequal_actions`).  The reader's number is off by exactly these
courses, and by nothing else (`account_run`).

So two runs with the same journal leave every student with the same courses and the same units, and
with actions that differ by as much as the numbers of courses that staff have dropped for the
student in each run.  This is the main statement, `equal_journals_equal_accounts`.
-/

namespace CourseRegistration

open Journal

/-! ## Accounts -/

/-- The student whom the entry is about, if it is about one. -/
def Journal.Entry.student? : Entry → Option StudentId
  | .enroll id _ _ | .drop id _ | .switchGroup id _ => some id
  | .resize .. => none

/-- What a reader of the journal keeps of a student. -/
@[ext] structure Account where
  /-- The group of each course that the student holds. -/
  courses : CourseId → Option GroupId
  units : Nat
  actions : Int

namespace Account

variable (unitsAt : SectionKey → Nat)

/-- The units of the group that the student holds of the course. -/
def unitsIn (a : Account) (course : CourseId) : Nat :=
  (a.courses course).elim 0 fun group => unitsAt ⟨course, group⟩

/-- Enters an entry about the student. -/
def enter (a : Account) : Entry → Account
  | .enroll _ key _ =>
    { a with
      courses := Function.update a.courses key.course (some key.group)
      units := min 65535 (a.units + unitsAt key) }
  | .drop _ course =>
    { courses := Function.update a.courses course none
      units := a.units - a.unitsIn unitsAt course
      actions := a.actions - 1 }
  | .switchGroup _ key =>
    { courses := Function.update a.courses key.course (some key.group)
      units := a.units + unitsAt key - a.unitsIn unitsAt key.course
      actions := a.actions - 1 }
  | .resize .. => a

/-- Enters those of the entries that are about the student. -/
def enterAll (id : StudentId) (a : Account) (entries : List Entry) : Account :=
  (entries.filter (·.student? = some id)).foldl (enter unitsAt) a

/-- The account with some actions given back. -/
def refund (a : Account) (n : Nat) : Account :=
  { a with actions := a.actions + n }

variable {unitsAt} {id : StudentId} {a : Account} {entries : List Entry} {entry : Entry}

lemma refund_zero (a : Account) : a.refund 0 = a := by
  simp [refund]

lemma refund_refund (a : Account) (m n : Nat) : (a.refund m).refund n = a.refund (m + n) := by
  simp [refund, Int.add_assoc]

/-- It does not matter when actions are given back. -/
lemma enter_refund (a : Account) (n : Nat) (entry : Entry) :
    (a.refund n).enter unitsAt entry = (a.enter unitsAt entry).refund n := by
  cases entry <;> simp [enter, refund, unitsIn, Int.sub_eq_add_neg, Int.add_right_comm]

lemma enterAll_refund (a : Account) (n : Nat) (entries : List Entry) :
    (a.refund n).enterAll unitsAt id entries = (a.enterAll unitsAt id entries).refund n := by
  unfold enterAll
  induction entries.filter (·.student? = some id) generalizing a with
  | nil => rfl
  | cons entry rest ih => rw [List.foldl_cons, List.foldl_cons, enter_refund, ih]

lemma enterAll_append (a : Account) (entries later : List Entry) :
    a.enterAll unitsAt id (entries ++ later) =
      (a.enterAll unitsAt id entries).enterAll unitsAt id later := by
  rw [enterAll, List.filter_append, List.foldl_append]
  rfl

/-- Entries about others leave the account as it is. -/
lemma enterAll_of_ne (h : ∀ entry ∈ entries, entry.student? ≠ some id) :
    a.enterAll unitsAt id entries = a := by
  have hnone : entries.filter (·.student? = some id) = [] := by
    rw [List.filter_eq_nil_iff]
    intro entry hentry
    simpa using h entry hentry
  rw [enterAll, hnone, List.foldl_nil]

lemma enterAll_singleton (h : entry.student? = some id) :
    a.enterAll unitsAt id [entry] = a.enter unitsAt entry := by
  simp [enterAll, h]

end Account

namespace Student

variable {s : Student}

/-- The account of a student as the registry has it. -/
def account (s : Student) : Account :=
  ⟨s.courses.get?, s.units.toNat, s.actions.toNat⟩

lemma account_hold (s : Student) (key : SectionKey) (units : UInt16) :
    (s.hold key units).account = { s.account with
      courses := Function.update s.account.courses key.course (some key.group)
      units := units.toNat } := by
  ext1
  · funext course
    exact (s.get?_hold key units course).trans (Function.update_apply ..).symm
  · rfl
  · rfl

lemma account_letGo (s : Student) (course : CourseId) (units : UInt8) :
    (s.letGo course units).account = { s.account with
      courses := Function.update s.account.courses course none
      units := s.account.units - units.toNat } := by
  ext1
  · funext course'
    exact (s.get?_letGo course units course').trans (Function.update_apply ..).symm
  · exact toNat_subUnits s.units units
  · rfl

lemma account_spendAction (able : s.actions ≠ 0) :
    s.spendAction.account = { s.account with actions := s.account.actions - 1 } := by
  have hspent := toNat_actions_spendAction able
  ext1
  · rfl
  · rfl
  · show (s.spendAction.actions.toNat : Int) = (s.actions.toNat : Int) - 1
    omega

end Student

/-! ## Effects -/

/-- The student's place in a course is what staff take back. -/
def Request.dropsByStaff (id : StudentId) : Request → Bool
  | .staffDrop id' _ => id' = id
  | _ => false

namespace Registry

variable {r r' : Registry} {now : Instant} {request : Request} {records : List Record}
  {id : StudentId} {s : Student} {key : SectionKey} {course : CourseId} {group : GroupId}

/-- The account that records make of the student's.  If they are of courses dropped by staff, the
actions that these have not cost are given back. -/
def accountAfter (r : Registry) (byStaff : Bool) (records : List Record) (s : Student) : Account :=
  (s.account.enterAll r.unitsAt s.id (records.map (·.entry))).refund
    (if byStaff then records.length else 0)

lemma accountAfter_nil (byStaff : Bool) : r.accountAfter byStaff [] s = s.account := by
  cases byStaff <;> exact Account.refund_zero _

lemma accountAfter_own {x : Record} (hx : x.entry.student? = some s.id) :
    r.accountAfter false [x] s = s.account.enter r.unitsAt x.entry := by
  rw [accountAfter, if_neg Bool.false_ne_true, Account.refund_zero, List.map_singleton,
    Account.enterAll_singleton hx]

lemma accountAfter_byStaff {x : Record} (hx : x.entry.student? = some s.id) :
    r.accountAfter true [x] s = (s.account.enter r.unitsAt x.entry).refund 1 := by
  rw [accountAfter, if_pos rfl, List.map_singleton, Account.enterAll_singleton hx]
  rfl

lemma accountAfter_other (h : ∀ x ∈ records, x.entry.student? ≠ some s.id) :
    r.accountAfter false records s = s.account := by
  have hentries : ∀ entry ∈ records.map (·.entry), entry.student? ≠ some s.id := by
    intro entry hentry
    obtain ⟨x, hx, rfl⟩ := List.mem_map.1 hentry
    exact h x hx
  rw [accountAfter, if_neg Bool.false_ne_true, Account.refund_zero, Account.enterAll_of_ne hentries]

/-- A record about nobody before the one about the student does not matter. -/
lemma accountAfter_raised {x y : Record} (hx : x.entry.student? = none)
    (hy : y.entry.student? = some s.id) :
    r.accountAfter false [x, y] s = s.account.enter r.unitsAt y.entry := by
  have hfirst : s.account.enterAll r.unitsAt s.id [x.entry] = s.account := by
    refine Account.enterAll_of_ne fun entry hentry => ?_
    rw [List.mem_singleton.1 hentry, hx]
    nofun
  have hentries : [x, y].map (·.entry) = [x.entry] ++ [y.entry] := rfl
  rw [accountAfter, if_neg Bool.false_ne_true, Account.refund_zero, hentries,
    Account.enterAll_append, hfirst, Account.enterAll_singleton hy]

/-- A new course adds its units up to the largest word, whoever has enrolled the student. -/
lemma account_enroll {units : UInt16} (waitlisted : Bool)
    (hunits : units.toNat = min 65535 (s.units.toNat + r.unitsAt key)) :
    (s.hold key units).account = s.account.enter r.unitsAt (.enroll s.id key waitlisted) := by
  rw [Student.account_hold, hunits]
  rfl

lemma unitsIn_account (holds : s.courses.get? course = some group) :
    s.account.unitsIn r.unitsAt course = r.unitsAt ⟨course, group⟩ := by
  show (s.courses.get? course).elim 0 _ = _
  rw [holds]
  rfl

/-- A course that staff drop takes its units along; the reader takes an action, too. -/
lemma account_staffDrop {units : UInt8} (holds : s.courses.get? course = some group)
    (hunits : r.unitsAt ⟨course, group⟩ = units.toNat) :
    (s.letGo course units).account = (s.account.enter r.unitsAt (.drop s.id course)).refund 1 := by
  rw [Student.account_letGo, ← hunits, ← unitsIn_account holds]
  simp [Account.enter, Account.refund]

lemma account_drop {units : UInt8} (able : s.actions ≠ 0)
    (holds : s.courses.get? course = some group)
    (hunits : r.unitsAt ⟨course, group⟩ = units.toNat) :
    (s.letGo course units).spendAction.account =
      s.account.enter r.unitsAt (.drop s.id course) := by
  rw [Student.account_spendAction (s := s.letGo course units) able, account_staffDrop holds hunits]
  simp [Account.refund]

lemma account_switchGroup {total : UInt16} {units units' : UInt8} (able : s.actions ≠ 0)
    (holds : s.courses.get? key.course = some group)
    (sum : Student.addUnits? s.units units = some total) (hunits : r.unitsAt key = units.toNat)
    (hunits' : r.unitsAt ⟨key.course, group⟩ = units'.toNat) :
    (s.hold key (Student.subUnits total units')).spendAction.account =
      s.account.enter r.unitsAt (.switchGroup s.id key) := by
  obtain ⟨-, hsum⟩ := Student.addUnits?_eq_some_iff.1 sum
  rw [Student.account_spendAction (s := s.hold key (Student.subUnits total units')) able,
    Student.account_hold, Student.toNat_subUnits, hsum, ← hunits, ← hunits',
    ← unitsIn_account holds]
  rfl

/-- The account of a student who is named in a request. -/
lemma Effect.account_self (h : r.Effect now request records r') (hr : r.Consistent)
    (known : r.students.get? s.id = some s) (hself : request.student? = some s.id) :
    ∃ s', r'.students.get? s.id = some s' ∧
      s'.account = r.accountAfter (request.dropsByStaff s.id) records s := by
  have hput : ∀ {s' : Student}, s'.id = s.id →
      (r.students.insert s'.id s').get? s.id = some s' := by
    intro s' hid
    rw [hid, OrderedMap.get?_insert_self]
  cases h with
  | nothing => exact ⟨s, known, (accountAfter_nil _).symm⟩
  | enroll known' _ found _ sum =>
    cases hself
    cases known.symm.trans known'
    obtain rfl := hr.sound.catalog.key_of_lookup found
    obtain ⟨hfits, hsum⟩ := Student.addUnits?_eq_some_iff.1 sum
    refine ⟨_, hput rfl, Eq.trans ?_ (accountAfter_own rfl).symm⟩
    refine account_enroll _ ?_
    rw [Registry.unitsAt_eq found, ← hsum]
    rw [← hsum] at hfits
    exact (Nat.min_eq_right (Nat.le_of_lt_succ hfits)).symm
  | drop known' _ able holds found =>
    cases hself
    cases known.symm.trans known'
    have hkey := hr.sound.catalog.key_of_lookup found
    refine ⟨_, hput rfl, Eq.trans ?_ (accountAfter_own rfl).symm⟩
    rw [hkey]
    exact account_drop able holds (Registry.unitsAt_eq found)
  | switchGroup known' _ able holds _ found found' _ sum =>
    cases hself
    cases known.symm.trans known'
    have hsource := hr.sound.catalog.key_of_lookup found
    have hdestination := hr.sound.catalog.key_of_lookup found'
    refine ⟨_, hput rfl, Eq.trans ?_ (accountAfter_own rfl).symm⟩
    rw [hsource, hdestination]
    exact account_switchGroup able holds sum (Registry.unitsAt_eq found')
      (Registry.unitsAt_eq found)
  | staffEnroll known' found =>
    cases hself
    cases known.symm.trans known'
    obtain rfl := hr.sound.catalog.key_of_lookup found
    refine ⟨_, hput rfl, Eq.trans ?_ (accountAfter_own rfl).symm⟩
    refine account_enroll _ ?_
    rw [Registry.unitsAt_eq found, Student.toNat_addUnits]
  | raise =>
    refine ⟨s, known, (accountAfter_other fun x hx => ?_).symm⟩
    rw [List.mem_singleton.1 hx]
    nofun
  | raiseAndEnroll known' found =>
    cases hself
    cases known.symm.trans known'
    obtain rfl := hr.sound.catalog.key_of_lookup found
    refine ⟨_, hput rfl, Eq.trans ?_ (accountAfter_raised rfl rfl).symm⟩
    refine account_enroll _ ?_
    rw [Registry.unitsAt_eq found, Student.toNat_addUnits]
  | @staffDrop _ course student group ref held known' holds found =>
    cases hself
    cases known.symm.trans known'
    have hkey := hr.sound.catalog.key_of_lookup found
    have hown : (Request.staffDrop s.id course).dropsByStaff s.id = true := decide_eq_true rfl
    refine ⟨_, hput rfl, ?_⟩
    rw [hown, accountAfter_byStaff rfl, hkey]
    exact account_staffDrop holds (Registry.unitsAt_eq found)
  | resize => cases hself

/-- The records of a request are about nobody but the student who is named in it. -/
lemma Effect.student_of_mem (h : r.Effect now request records r') (hr : r.Sound) :
    ∀ x ∈ records, x.entry.student? = none ∨ x.entry.student? = request.student? := by
  intro x hx
  cases h with
  | nothing => cases hx
  | drop known | staffDrop known =>
    rw [List.mem_singleton.1 hx]
    exact .inr (congrArg some (hr.filed known))
  | enroll | switchGroup | staffEnroll =>
    rw [List.mem_singleton.1 hx]
    exact .inr rfl
  | raise | resize =>
    rw [List.mem_singleton.1 hx]
    exact .inl rfl
  | raiseAndEnroll =>
    rcases List.mem_cons.1 hx with rfl | hx
    · exact .inl rfl
    · rw [List.mem_singleton.1 hx]
      exact .inr rfl

/-- **The records of a request tell what it makes of every account**, but for the action that a
course dropped by staff has not cost. -/
theorem Effect.account (h : r.Effect now request records r') (hr : r.Consistent)
    (known : r.students.get? id = some s) :
    ∃ s', r'.students.get? id = some s' ∧
      s'.account = r.accountAfter (request.dropsByStaff id) records s := by
  obtain rfl := hr.sound.filed known
  by_cases hself : request.student? = some s.id
  · exact h.account_self hr known hself
  · have hown : request.dropsByStaff s.id = false := by
      rw [Bool.eq_false_iff]
      intro hdrops
      cases request with
      | staffDrop id' course => exact hself (congrArg some (of_decide_eq_true hdrops))
      | _ => cases hdrops
    refine ⟨s, (h.get?_students_of_ne hr.sound hself).trans known, ?_⟩
    rw [hown, accountAfter_other]
    intro x hx hstudent
    rcases h.student_of_mem hr.sound x hx with hnone | hsame
    · rw [hnone] at hstudent
      cases hstudent
    · exact hself (hsame.symm.trans hstudent)

end Registry

/-! ## Runs -/

/-- The turn is a request of staff to drop a course for the student. -/
def Turn.dropsByStaff (id : StudentId) : Turn → Bool
  | .call (.request _ request) => request.dropsByStaff id
  | _ => false

namespace Office

/-- The records of the courses that staff drop for a student in a run. -/
def droppedByStaff (id : StudentId) (o : Office) : List Turn → List Record
  | [] => []
  | t :: rest =>
    let (reports, o') := o.turn t
    (if t.dropsByStaff id then Report.journal reports else []) ++ o'.droppedByStaff id rest

variable {o : Office} {id : StudentId} {s : Student}

/-- What a turn makes of an account is told by its records. -/
lemma account_turn (hr : o.registry.Consistent) (known : o.registry.students.get? id = some s)
    (t : Turn) :
    (o.turn t).2.registry.Consistent ∧ (o.turn t).2.registry.unitsAt = o.registry.unitsAt ∧
    ∃ s', (o.turn t).2.registry.students.get? id = some s' ∧ s'.account =
      o.registry.accountAfter (t.dropsByStaff id) (Report.journal (o.turn t).1) s := by
  refine ⟨hr.run [t], ?_⟩
  cases t with
  | call call =>
    cases call with
    | request cancelled request =>
      have effect := o.handle_effect cancelled request
      refine ⟨effect.unitsAt_eq hr, ?_⟩
      have hrecords : Report.journal (o.turn (.call (.request cancelled request))).1 =
          (o.handle cancelled request).1.taken := List.append_nil _
      rw [hrecords]
      exact effect.account hr known
    | query q =>
      have hrecords : Report.journal (o.turn (.call (.query q))).1 = [] := by
        simp [turn, serve, Report.journal, (o.ask_records q).1]
      rw [hrecords]
      exact ⟨rfl, s, known, (Registry.accountAfter_nil _).symm⟩
  | examTime ref time =>
    refine ⟨Registry.unitsAt_setExamTime hr.sound ref time, s, ?_,
      (Registry.accountAfter_nil _).symm⟩
    exact (congrArg (·.get? id) (o.registry.students_setExamTime ref time)).trans known
  | clock now => exact ⟨rfl, s, known, (Registry.accountAfter_nil _).symm⟩
  | outbox outbox => exact ⟨rfl, s, known, (Registry.accountAfter_nil _).symm⟩

/-- **What a run makes of an account is told by its journal**, but for the actions that the courses
dropped by staff have not cost. -/
theorem account_run (hr : o.registry.Consistent) (known : o.registry.students.get? id = some s)
    (turns : List Turn) :
    ∃ s', (o.run turns).2.registry.students.get? id = some s' ∧
      s'.account = (s.account.enterAll o.registry.unitsAt id
        ((Report.journal (o.run turns).1).map (·.entry))).refund
          (o.droppedByStaff id turns).length := by
  induction turns generalizing o s with
  | nil => exact ⟨s, known, (Account.refund_zero _).symm⟩
  | cons t rest ih =>
    obtain ⟨hr', hunits, s₁, known₁, haccount₁⟩ := account_turn hr known t
    obtain ⟨s', known', haccount'⟩ := ih hr' known₁
    obtain rfl := hr.sound.filed known
    refine ⟨s', known', ?_⟩
    have hjournal : Report.journal (o.run (t :: rest)).1 =
        Report.journal (o.turn t).1 ++ Report.journal ((o.turn t).2.run rest).1 :=
      List.flatMap_append ..
    have hdropped : (o.droppedByStaff s.id (t :: rest)).length =
        (if t.dropsByStaff s.id then (Report.journal (o.turn t).1).length else 0) +
          ((o.turn t).2.droppedByStaff s.id rest).length := by
      rw [droppedByStaff, List.length_append, apply_ite List.length]
      rfl
    rw [haccount', haccount₁, hunits, Registry.accountAfter, Account.enterAll_refund,
      Account.refund_refund, hjournal, hdropped, List.map_append, Account.enterAll_append]

/-- **Runs with the same journal leave every student with the same courses and the same units.**
The actions that are left differ by as much as the numbers of courses that staff have dropped for
the student. -/
theorem equal_journals_equal_accounts {snapshot : Snapshot} {r : Registry}
    (built : snapshot.build = .ok r) (clock clock' : Instant) (outbox outbox' : Outbox)
    (turns turns' : List Turn)
    (same : Report.journal (run ⟨r, clock, outbox⟩ turns).1 =
      Report.journal (run ⟨r, clock', outbox'⟩ turns').1) :
    ∀ id student, r.students.get? id = some student →
      ∃ s s', (run ⟨r, clock, outbox⟩ turns).2.registry.students.get? id = some s ∧
        (run ⟨r, clock', outbox'⟩ turns').2.registry.students.get? id = some s' ∧
        s.courses = s'.courses ∧ s.units = s'.units ∧
        s.actions.toNat + (droppedByStaff id ⟨r, clock', outbox'⟩ turns').length =
          s'.actions.toNat + (droppedByStaff id ⟨r, clock, outbox⟩ turns).length := by
  intro id student known
  have hr := Snapshot.build_consistent built
  obtain ⟨s, hs, haccount⟩ := account_run (o := ⟨r, clock, outbox⟩) hr known turns
  obtain ⟨s', hs', haccount'⟩ := account_run (o := ⟨r, clock', outbox'⟩) hr known turns'
  rw [← same] at haccount'
  -- both are the reader's account, each with its own courses dropped by staff
  have hcourses : s.account.courses = s'.account.courses := by
    rw [haccount, haccount']
    rfl
  have hunits : s.account.units = s'.account.units := by
    rw [haccount, haccount']
    rfl
  have hactions : (s.actions.toNat : Int) +
      (droppedByStaff id ⟨r, clock', outbox'⟩ turns').length =
        s'.actions.toNat + (droppedByStaff id ⟨r, clock, outbox⟩ turns).length := by
    show s.account.actions + _ = s'.account.actions + _
    rw [haccount, haccount']
    exact Int.add_right_comm ..
  refine ⟨s, s', hs, hs', OrderedMap.ext_get? (congrFun hcourses), UInt16.toNat_inj.1 hunits, ?_⟩
  exact_mod_cast hactions

/-- Student 1 drops the course in one run, and staff drop it for student 1 in the other. -/
theorem equal_journals_equal_accounts_small :
    let turns : List Turn := [.call (.request false (.drop ⟨1⟩ ⟨100⟩))]
    let turns' : List Turn := [.call (.request false (.staffDrop ⟨1⟩ ⟨100⟩))]
    ∃ s s', (run ⟨.small, .epoch, .script .accepting⟩ turns).2.registry.students.get? ⟨1⟩ = some s ∧
      (run ⟨.small, .epoch, .script .accepting⟩ turns').2.registry.students.get? ⟨1⟩ = some s' ∧
      s.courses = s'.courses ∧ s.units = s'.units ∧ s.actions.toNat + 1 = s'.actions.toNat := by
  intro turns turns'
  obtain ⟨s, s', hs, hs', hcourses, hunits, hactions⟩ := equal_journals_equal_accounts
    Snapshot.small_build .epoch .epoch (.script .accepting) (.script .accepting) turns turns'
    (by decide +kernel) ⟨1⟩ _ rfl
  exact ⟨s, s', hs, hs', hcourses, hunits, hactions⟩

/-- The journal does not tell whether student 1 or staff have dropped a course, nor, therefore, how
many actions student 1 has left. -/
theorem equal_journals_unequal_actions :
    let (reports, o) := run ⟨.small, .epoch, .script .accepting⟩
      [.call (.request false (.drop ⟨1⟩ ⟨100⟩))]
    let (reports', o') := run ⟨.small, .epoch, .script .accepting⟩
      [.call (.request false (.staffDrop ⟨1⟩ ⟨100⟩))]
    Report.journal reports = Report.journal reports' ∧
      Report.journal reports = [⟨⟨7⟩, .drop ⟨1⟩ ⟨100⟩⟩] ∧
      (o.registry.students.get? ⟨1⟩).map (·.actions) = some 1 ∧
      (o'.registry.students.get? ⟨1⟩).map (·.actions) = some 2 :=
  ⟨rfl, rfl, rfl, rfl⟩

end Office

end CourseRegistration
