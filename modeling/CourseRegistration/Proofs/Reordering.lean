import CourseRegistration.Proofs.Replay
import CourseRegistration.Proofs.SectionSteps

/-!
# Reading the journal in another order

A record is filed under a department, so that the journal can be kept in parts, one for each
department, and a reader who puts the parts together again sees the records of one department in
order but not those of different ones.  Is that enough?

It is if the records of one course stay in order (`followAll_eq_of_rearranged`): an entry is about
one course, the page of the book for that course is all that it reads or changes, and so the page
for a course depends on the entries of that course alone.  It is therefore enough if the groups of
each course belong to one department (`replay_rearranged`).  But nothing sees to that when a
registry is built.  A student who moves between groups of different departments is recorded under
the department of the group that is left, so the two departments both write about one waitlist, and
their order matters (`waitlist_depends_on_order`).

A reader of a rearranged journal may find entries that the book does not allow, and skips them.
-/

namespace CourseRegistration

open Journal

/-! ## Rearrangements -/

/-- The list `l'` has the elements of `l`, and those with one key are in the same order in both. -/
structure Rearranged {α κ : Type} [DecidableEq κ] (key : α → κ) (l l' : List α) : Prop where
  perm : l.Perm l'
  order : ∀ k, (l'.filter fun a => key a = k) = l.filter fun a => key a = k

/-- If all elements with one fine key have one coarse key, order by coarse keys is order by fine
ones. -/
lemma Rearranged.of_coarser {α κ ι : Type} [DecidableEq κ] [DecidableEq ι] {coarse : α → κ}
    {fine : α → ι} {l l' : List α} (h : Rearranged coarse l l')
    (hkeys : ∀ a ∈ l, ∀ b ∈ l, fine a = fine b → coarse a = coarse b) : Rearranged fine l l' := by
  refine ⟨h.perm, fun k => ?_⟩
  by_cases hex : ∃ a ∈ l, fine a = k
  · obtain ⟨a, ha, rfl⟩ := hex
    -- the elements with the fine key of `a` are among those with its coarse key
    have among : ∀ m : List α, (∀ b ∈ m, b ∈ l) → (m.filter fun b => fine b = fine a) =
        (m.filter fun b => coarse b = coarse a).filter fun b => fine b = fine a := by
      intro m hm
      rw [List.filter_filter]
      refine List.filter_congr fun b hb => ?_
      by_cases hb' : fine b = fine a
      · simp [hb', hkeys b (hm b hb) a ha hb']
      · simp [hb']
    rw [among l' fun b hb => h.perm.mem_iff.2 hb, h.order, ← among l fun b hb => hb]
  · have hnone : ∀ a ∈ l, ¬ fine a = k := fun a ha hk => hex ⟨a, ha, hk⟩
    have hnone' : ∀ a ∈ l', ¬ fine a = k := fun a ha => hnone a (h.perm.mem_iff.2 ha)
    rw [List.filter_eq_nil_iff.2 (by simpa using hnone'),
      List.filter_eq_nil_iff.2 (by simpa using hnone)]

lemma Rearranged.map {α β κ : Type} [DecidableEq κ] {key : β → κ} {l l' : List α} {f : α → β}
    (h : Rearranged (fun a => key (f a)) l l') : Rearranged key (l.map f) (l'.map f) := by
  refine ⟨h.perm.map f, fun k => ?_⟩
  rw [List.filter_map, List.filter_map]
  exact congrArg (List.map f) (h.order k)

/-- Two elements with different keys can change places. -/
lemma Rearranged.swap {α κ : Type} [DecidableEq κ] {key : α → κ} {a b : α} (h : key a ≠ key b) :
    Rearranged key [a, b] [b, a] := by
  refine ⟨.swap b a [], fun k => ?_⟩
  by_cases ha : key a = k
  · have hb : key b ≠ k := fun hb => h (ha.trans hb.symm)
    simp [ha, hb]
  · simp [List.filter_cons, ha]

/-! ## Pages -/

/-- What a book says about one course. -/
structure Page where
  sheets : GroupId → Option Sheet
  /-- The group that each student holds. -/
  held : StudentId → Option GroupId

/-- The course that an entry is about. -/
def Journal.Entry.course : Entry → CourseId
  | enroll _ key _ | switchGroup _ key | resize key _ _ => key.course
  | drop _ course => course

namespace Book

variable {b b' : Book} {course : CourseId} {key : SectionKey} {entry : Entry}

/-- What the book says about a course. -/
def page (b : Book) (course : CourseId) : Page :=
  ⟨fun group => b.sheets ⟨course, group⟩, fun id => b.held id course⟩

/-- Enters an entry, or skips it if the book does not allow it. -/
def follow (b : Book) (entry : Entry) : Book :=
  (b.replay? entry).getD b

/-- Enters the entries in order, without those that the book does not allow. -/
def followAll (b : Book) (entries : List Entry) : Book :=
  entries.foldl follow b

lemma ext_page (h : ∀ course, b.page course = b'.page course) : b = b' := by
  ext1
  · funext key
    exact congrFun (congrArg Page.sheets (h key.course)) key.group
  · funext id course
    exact congrFun (congrArg Page.held (h course)) id

lemma sheets_eq_of_page (h : b.page key.course = b'.page key.course) :
    b.sheets key = b'.sheets key :=
  congrFun (congrArg Page.sheets h) key.group

lemma held_eq_of_page (h : b.page course = b'.page course) (id : StudentId) :
    b.held id course = b'.held id course :=
  congrFun (congrArg Page.held h) id

/-- Filing a sheet is the same for books with the same page, and leaves other pages alone. -/
lemma page_file (h : b.page course = b'.page course) (key : SectionKey) (t : Sheet) :
    (b.file key t).page course = (b'.file key t).page course := by
  simp only [page, file, Page.mk.injEq] at h ⊢
  exact ⟨funext fun group => by rw [congrFun h.1 group], h.2⟩

lemma page_file_of_ne (h : course ≠ key.course) (t : Sheet) :
    (b.file key t).page course = b.page course := by
  have hne : ∀ group, (⟨course, group⟩ : SectionKey) ≠ key := fun group heq =>
    h (congrArg SectionKey.course heq)
  simp only [page, file, if_neg (hne _)]

lemma page_enter (h : b.page course = b'.page course) (id : StudentId) (course' : CourseId)
    (group : Option GroupId) :
    (b.enter id course' group).page course = (b'.enter id course' group).page course := by
  simp only [page, enter, Page.mk.injEq] at h ⊢
  exact ⟨h.1, funext fun id => by rw [congrFun h.2 id]⟩

lemma page_enter_of_ne {course' : CourseId} (h : course ≠ course') (id : StudentId)
    (group : Option GroupId) : (b.enter id course' group).page course = b.page course := by
  simp only [page, enter, h, and_false, if_false]

/-! ## One entry -/

/-- **An entry changes the page of its own course only.** -/
theorem page_follow_of_ne (h : course ≠ entry.course) :
    (b.follow entry).page course = b.page course := by
  unfold follow
  cases hentry : b.replay? entry with
  | none => rfl
  | some after =>
    cases entry with
    | enroll id key waitlisted =>
      obtain ⟨t, -, ⟨⟩⟩ := Option.bind_eq_some_iff.1 hentry
      exact (page_enter_of_ne h _ _).trans (page_file_of_ne h _)
    | drop id dropped =>
      obtain ⟨group, -, hrest⟩ := Option.bind_eq_some_iff.1 hentry
      obtain ⟨t, -, ⟨⟩⟩ := Option.bind_eq_some_iff.1 hrest
      exact (page_enter_of_ne h _ _).trans (page_file_of_ne h _)
    | switchGroup id key =>
      obtain ⟨source, -, hrest⟩ := Option.bind_eq_some_iff.1 hentry
      obtain ⟨t, -, hrest⟩ := Option.bind_eq_some_iff.1 hrest
      obtain ⟨s, -, ⟨⟩⟩ := Option.bind_eq_some_iff.1 hrest
      have hsource : course ≠ (⟨key.course, source⟩ : SectionKey).course := h
      exact (page_enter_of_ne h _ _).trans ((page_file_of_ne hsource _).trans (page_file_of_ne h _))
    | resize key capacity promoted =>
      obtain ⟨t, -, hrest⟩ := Option.bind_eq_some_iff.1 hentry
      obtain ⟨t', -, ⟨⟩⟩ := Option.bind_eq_some_iff.1 hrest
      exact page_file_of_ne h _

/-- **An entry reads the page of its own course only.** -/
theorem page_follow (h : b.page entry.course = b'.page entry.course) :
    (b.follow entry).page entry.course = (b'.follow entry).page entry.course := by
  cases entry with
  | enroll id key waitlisted =>
    simp only [follow, replay?, sheets_eq_of_page h]
    cases b'.sheets key with
    | none => exact h
    | some t => exact page_enter (page_file h _ _) _ _ _
  | drop id dropped =>
    have hheld : b.held id dropped = b'.held id dropped := held_eq_of_page h id
    simp only [follow, replay?, hheld]
    cases b'.held id dropped with
    | none => exact h
    | some group =>
      have hsheets : b.sheets ⟨dropped, group⟩ = b'.sheets ⟨dropped, group⟩ := sheets_eq_of_page h
      simp only [Option.bind_eq_bind, Option.bind_some, hsheets]
      cases b'.sheets ⟨dropped, group⟩ with
      | none => exact h
      | some t => exact page_enter (page_file h _ _) _ _ _
  | switchGroup id key =>
    have hheld : b.held id key.course = b'.held id key.course := held_eq_of_page h id
    simp only [follow, replay?, hheld, sheets_eq_of_page h]
    cases b'.held id key.course with
    | none => exact h
    | some source =>
      cases b'.sheets key with
      | none => exact h
      | some t =>
        have hplaced := page_file h key (t.add id !(t.registered.size < t.capacity.toNat))
        have hsheets : (b.file key _).sheets ⟨key.course, source⟩ =
            (b'.file key _).sheets ⟨key.course, source⟩ := sheets_eq_of_page hplaced
        simp only [Option.bind_eq_bind, Option.bind_some, hsheets]
        cases (b'.file key (t.add id _)).sheets ⟨key.course, source⟩ with
        | none => exact h
        | some s => exact page_enter (page_file hplaced _ _) _ _ _
  | resize key capacity promoted =>
    simp only [follow, replay?, sheets_eq_of_page h]
    cases b'.sheets key with
    | none => exact h
    | some t =>
      simp only [Option.bind_eq_bind, Option.bind_some]
      cases t.resize? capacity promoted with
      | none => exact h
      | some t' => exact page_file h _ _

/-! ## All entries -/

/-- The page of a course depends on the entries about the course. -/
lemma page_followAll (h : b.page course = b'.page course) (entries : List Entry) :
    (b.followAll entries).page course =
      (b'.followAll (entries.filter fun entry => entry.course = course)).page course := by
  induction entries generalizing b b' with
  | nil => exact h
  | cons entry rest ih =>
    by_cases hcourse : entry.course = course
    · rw [List.filter_cons_of_pos (by simpa using hcourse)]
      subst hcourse
      exact ih (page_follow h)
    · rw [List.filter_cons_of_neg (by simpa using hcourse)]
      exact ih ((page_follow_of_ne (Ne.symm hcourse)).trans h)

/-- **Entries of different courses can be entered in any order.** -/
theorem followAll_eq_of_rearranged {entries entries' : List Entry}
    (h : Rearranged Entry.course entries entries') (b : Book) :
    b.followAll entries' = b.followAll entries := by
  refine ext_page fun course => ?_
  rw [page_followAll rfl, h.order, ← page_followAll rfl]

end Book

/-! ## Departments -/

namespace Registry

variable {r r' : Registry} {now : Instant} {request : Request} {records : List Record}

/-- The department of the section with the given key. -/
def departmentAt (r : Registry) (key : SectionKey) : Option DepartmentId :=
  (r.catalog.lookup key).map (·.2.department)

/-- The record is filed under the department of a group of its course. -/
def Filed (r : Registry) (record : Record) : Prop :=
  ∃ key : SectionKey, r.departmentAt key = some record.department ∧
    key.course = record.entry.course

lemma Effect.departmentAt_eq (h : r.Effect now request records r') (hr : r.Consistent)
    (key : SectionKey) : r'.departmentAt key = r.departmentAt key := by
  unfold departmentAt
  rcases h.stepAt hr key with ⟨hnone, hnone'⟩ | ⟨ref, s, seats, found, found', -⟩
  · rw [hnone, hnone']
  · rw [found, found']
    rfl

lemma departmentAt_setExamTime (hr : r.Sound) (ref : Catalog.Ref) (time : Int64)
    (key : SectionKey) : (r.setExamTime ref time).departmentAt key = r.departmentAt key := by
  unfold departmentAt
  rw [lookup_setExamTime hr, Option.map_map]
  refine Option.map_congr fun p _ => ?_
  simp only [Function.comp_apply]
  split_ifs <;> rfl

/-- A section's own records are filed under its department. -/
lemma Sound.filed_record (hr : r.Sound) {key : SectionKey} {ref : Catalog.Ref} {s : Section}
    {entry : Entry} (found : r.catalog.lookup key = some (ref, s))
    (hentry : entry.course = s.key.course) : r.Filed (s.record entry) := by
  refine ⟨key, by simp [departmentAt, found, Section.record], ?_⟩
  rw [← hr.catalog.key_of_lookup found]
  exact hentry.symm

/-- Every record of a request is filed under the department of a group of its course, though a
change of groups has two to choose from. -/
lemma Effect.filed (h : r.Effect now request records r') (hr : r.Sound) :
    ∀ record ∈ records, r.Filed record := by
  cases h with
  | nothing => exact nofun
  | enroll _ _ found => exact List.forall_mem_singleton.2 (hr.filed_record found rfl)
  | drop _ _ _ _ found => exact List.forall_mem_singleton.2 (hr.filed_record found rfl)
  | switchGroup _ _ _ _ _ found => exact List.forall_mem_singleton.2 (hr.filed_record found rfl)
  | staffEnroll _ found => exact List.forall_mem_singleton.2 (hr.filed_record found rfl)
  | raise _ found => exact List.forall_mem_singleton.2 (hr.filed_record found rfl)
  | raiseAndEnroll _ found =>
    exact List.forall_mem_cons.2 ⟨hr.filed_record found rfl,
      List.forall_mem_singleton.2 (hr.filed_record found rfl)⟩
  | staffDrop _ _ found => exact List.forall_mem_singleton.2 (hr.filed_record found rfl)
  | resize found => exact List.forall_mem_singleton.2 (hr.filed_record found rfl)

end Registry

/-- If the sections of a course are listed under one department, records of one course are filed
under one department. -/
lemma Snapshot.department_eq_of_filed {snapshot : Snapshot} {r : Registry}
    (built : snapshot.build = .ok r)
    (hcourses : ∀ s ∈ snapshot.sections, ∀ t ∈ snapshot.sections,
      s.key.course = t.key.course → s.department = t.department)
    {a b : Record} (ha : r.Filed a) (hb : r.Filed b) (hcourse : a.entry.course = b.entry.course) :
    a.department = b.department := by
  obtain ⟨hs, rfl⟩ := build_eq_ok_iff.1 built
  have listed : ∀ {record : Record}, snapshot.registry.Filed record →
      ∃ t ∈ snapshot.sections, t.key.course = record.entry.course ∧
        t.department = record.department := by
    rintro record ⟨key, hdepartment, hkey⟩
    obtain ⟨⟨ref, made⟩, found, hmade⟩ := Option.map_eq_some_iff.1 hdepartment
    obtain ⟨t, ht, rfl, rfl⟩ := hs.lookup_eq_some found
    exact ⟨t, ht, hkey, hmade⟩
  obtain ⟨s, hs, hscourse, hsdepartment⟩ := listed ha
  obtain ⟨t, ht, htcourse, htdepartment⟩ := listed hb
  rw [← hsdepartment, ← htdepartment]
  exact hcourses s hs t ht (hscourse.trans (hcourse.trans htcourse.symm))

namespace Office

lemma run_filed {r : Registry} (hr : r.Consistent) (clock : Instant) (outbox : Outbox)
    (turns : List Turn) :
    ∀ record ∈ Report.journal (run ⟨r, clock, outbox⟩ turns).1, r.Filed record := by
  let P : List Record → Registry → Prop := fun log r' =>
    r'.Consistent ∧ (∀ key, r'.departmentAt key = r.departmentAt key) ∧
      ∀ record ∈ log, r.Filed record
  have hend : P (Report.journal (run ⟨r, clock, outbox⟩ turns).1)
      (run ⟨r, clock, outbox⟩ turns).2.registry := by
    refine @run_keeps P ?_ ?_ turns ⟨r, clock, outbox⟩ [] ⟨hr, fun _ => rfl, nofun⟩
    · rintro log now r₁ request records r₂ ⟨hr₁, hsame, hlog⟩ effect
      refine ⟨effect.consistent hr₁, fun key => (effect.departmentAt_eq hr₁ key).trans (hsame key),
        List.forall_mem_append.2 ⟨hlog, fun record hrecord => ?_⟩⟩
      obtain ⟨key, hdepartment, hcourse⟩ := effect.filed hr₁.sound record hrecord
      exact ⟨key, hsame key ▸ hdepartment, hcourse⟩
    · rintro log r₁ ref time ⟨hr₁, hsame, hlog⟩
      exact ⟨hr₁.setExamTime ref time, fun key =>
        (Registry.departmentAt_setExamTime hr₁.sound ref time key).trans (hsame key), hlog⟩
  exact hend.2.2

/-- **Order by courses is enough to read the journal, and order by departments is if every course
belongs to one department.**  Whatever a run has got into the journal: a reader who has the records
of each course in order, and skips what the book does not allow, ends with the same book as one who
has all records in order; and if the groups of each course are listed under one department, the
records of each department need to be in order only. -/
theorem replay_rearranged {snapshot : Snapshot} {r : Registry} (built : snapshot.build = .ok r)
    (clock : Instant) (outbox : Outbox) (turns : List Turn) (log' : List Record) :
    let log := Report.journal (run ⟨r, clock, outbox⟩ turns).1
    (Rearranged (·.entry.course) log log' →
      r.book.followAll (log'.map (·.entry)) = r.book.followAll (log.map (·.entry))) ∧
    ((∀ s ∈ snapshot.sections, ∀ t ∈ snapshot.sections,
        s.key.course = t.key.course → s.department = t.department) →
      Rearranged (·.department) log log' →
      r.book.followAll (log'.map (·.entry)) = r.book.followAll (log.map (·.entry))) := by
  intro log
  have bycourse : Rearranged (·.entry.course) log log' →
      r.book.followAll (log'.map (·.entry)) = r.book.followAll (log.map (·.entry)) := fun h =>
    Book.followAll_eq_of_rearranged h.map r.book
  refine ⟨bycourse, fun hcourses h => bycourse (h.of_coarser fun a ha b hb => ?_)⟩
  have filed := run_filed (Snapshot.build_consistent built) clock outbox turns
  exact Snapshot.department_eq_of_filed built hcourses (filed a ha) (filed b hb)

/-- A group of course 100 in department 7 with student 1, and another section in department 8 with
student 3; student 2 has no place. -/
def acrossDepartments (other : SectionKey) : Snapshot where
  departments := [⟨⟨7⟩, "Mathematics"⟩, ⟨⟨8⟩, "Physics"⟩]
  sections := [group ⟨⟨100⟩, ⟨1⟩⟩ ⟨7⟩ [⟨1⟩], group other ⟨8⟩ [⟨3⟩]]
  students := [student 1 [⟨⟨100⟩, ⟨1⟩⟩], student 2 [], student 3 [other]]
where
  /-- A section with one seat and two places to wait. -/
  group (key : SectionKey) (department : DepartmentId) (students : List StudentId) :
      Snapshot.StoredSection :=
    ⟨key, department, "staff", 3, 1, 2, none, none, .unlocked, students⟩
  /-- A student whose window starts right before 1970 and who holds the given sections. -/
  student (number : UInt64) (courses : List SectionKey) : Snapshot.StoredStudent :=
    ⟨⟨number⟩, -1, 12, 2, .female, courses⟩

/-- The other section is of another course.  Student 1 leaves course 100 and student 2 enrolls in
the other one, and a reader may see the two records in either order. -/
theorem replay_rearranged_small :
    ∃ r, (acrossDepartments ⟨⟨200⟩, ⟨1⟩⟩).build = .ok r ∧
      let log := Report.journal (run ⟨r, .epoch, .script .accepting⟩ [
        .call (.request false (.drop ⟨1⟩ ⟨100⟩)),
        .call (.request false (.enroll ⟨2⟩ ⟨⟨200⟩, ⟨1⟩⟩))]).1
      log = [⟨⟨7⟩, .drop ⟨1⟩ ⟨100⟩⟩, ⟨⟨8⟩, .enroll ⟨2⟩ ⟨⟨200⟩, ⟨1⟩⟩ true⟩] ∧
      r.book.followAll (log.reverse.map (·.entry)) = r.book.followAll (log.map (·.entry)) := by
  obtain ⟨r, built⟩ : ∃ r, (acrossDepartments ⟨⟨200⟩, ⟨1⟩⟩).build = .ok r := ⟨_, rfl⟩
  refine ⟨r, built, ?_⟩
  intro log
  have hlog : log = [⟨⟨7⟩, .drop ⟨1⟩ ⟨100⟩⟩, ⟨⟨8⟩, .enroll ⟨2⟩ ⟨⟨200⟩, ⟨1⟩⟩ true⟩] := by
    cases built
    rfl
  have hcourses : ∀ s ∈ (acrossDepartments ⟨⟨200⟩, ⟨1⟩⟩).sections,
      ∀ t ∈ (acrossDepartments ⟨⟨200⟩, ⟨1⟩⟩).sections,
      s.key.course = t.key.course → s.department = t.department := by decide
  have hrearranged : Rearranged (·.department) log log.reverse := by
    rw [hlog]
    exact .swap (by decide)
  obtain ⟨-, hreplay⟩ := replay_rearranged built .epoch (.script .accepting) _ log.reverse
  exact ⟨hlog, hreplay hcourses hrearranged⟩

/-- **Order by departments is not enough when a course is given by two of them.**  Here the other
section is a second group of the course, and is full.  Student 1 moves to it from the first group,
which is recorded under department 7, and student 2 enrolls in it, which is recorded under
department 8.  Who reads department 8 first has the two on the waitlist in the wrong order. -/
theorem waitlist_depends_on_order :
    ∃ r, (acrossDepartments ⟨⟨100⟩, ⟨2⟩⟩).build = .ok r ∧
      let log := Report.journal (run ⟨r, .epoch, .script .accepting⟩ [
        .call (.request false (.switchGroup ⟨1⟩ ⟨⟨100⟩, ⟨2⟩⟩)),
        .call (.request false (.enroll ⟨2⟩ ⟨⟨100⟩, ⟨2⟩⟩))]).1
      let waitlist := fun entries : List Record =>
        ((r.book.followAll (entries.map (·.entry))).sheets ⟨⟨100⟩, ⟨2⟩⟩).map (·.waitlist)
      Rearranged (·.department) log log.reverse ∧
        waitlist log = some [⟨1⟩, ⟨2⟩] ∧ waitlist log.reverse = some [⟨2⟩, ⟨1⟩] := by
  refine ⟨_, rfl, ?_⟩
  intro log waitlist
  have hlog : log = [⟨⟨7⟩, .switchGroup ⟨1⟩ ⟨⟨100⟩, ⟨2⟩⟩⟩,
    ⟨⟨8⟩, .enroll ⟨2⟩ ⟨⟨100⟩, ⟨2⟩⟩ true⟩] := rfl
  refine ⟨?_, rfl, rfl⟩
  rw [hlog]
  exact .swap (by decide)

end Office

end CourseRegistration
