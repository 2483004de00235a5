import CourseRegistration.Proofs.Agreement
import CourseRegistration.Proofs.Reload

/-!
# What the queries say together

The courses of a student are listed from what the student holds, a roster from the seats of its
section, and a view from their number.  Nothing but consistency makes these answers fit: the
listing never fails, its entries are the courses of the summary, and the place that an entry tells
is the place on the roster of its section.

As a whole they balance.  A place and a held course are the same pair of student and section, seen
from either side; each side lists every pair once (`placed_perm_holdings`), so all views together
count as many places as all students hold courses.

The headline is `run_queries_agree`.
-/

namespace CourseRegistration

open Journal Check

/-! ## Positions -/

/-- The entry tells where the student stands on the roster: 0 for a registered student, else the
place on the waitlist, whose head has place 1. -/
structure StudentCourse.Places (c : StudentCourse) (id : StudentId) (roster : Roster) : Prop where
  registered : c.position = 0 ↔ id ∈ roster.registered
  waiting : ∀ n, c.position = n + 1 ↔ roster.waitlist[n]? = some id

/-- The counts of the view are the lengths of the roster. -/
structure Offering.Counts (v : Offering) (roster : Roster) : Prop where
  registered : v.registeredCount = roster.registered.length
  waiting : v.waitlistCount = roster.waitlist.length

lemma Section.view_counts (s : Section) : s.view.Counts s.roster :=
  ⟨rfl, rfl⟩

/-- A student with a place sees an entry. -/
lemma Section.exists_seenBy {s : Section} {id : StudentId} (h : s.seats.holds id = true) :
    ∃ c, s.seenBy id = .ok c := by
  obtain ⟨position, hposition⟩ := Option.isSome_iff_exists.1 (Seats.position?_isSome_iff.2 h)
  unfold seenBy
  rw [hposition]
  exact ⟨_, rfl⟩

/-- Where nobody has two places, the entry that a student sees tells the only one. -/
lemma Section.places_of_seenBy {s : Section} {id : StudentId} {c : StudentCourse}
    (hs : s.seats.Orderly) (h : s.seenBy id = .ok c) :
    c.course = s.view ∧ c.Places id s.roster := by
  unfold seenBy at h
  split at h
  · rename_i position hposition
    cases h
    refine ⟨rfl, ?_, fun n => ?_⟩
    · rw [← Option.some_inj, ← hposition]
      exact Seats.position?_eq_zero_iff
    · rw [← Option.some_inj, ← hposition]
      exact hs.position?_eq_succ_iff
  · cases h

/-! ## The courses of a student -/

/-- Where each result names what it was made from, the results name the whole list in order. -/
lemma Check.mapM_ok {α β : Type} {f : α → Check β} {g : β → α} {P : β → Prop} {as : List α}
    (h : ∀ a ∈ as, ∃ b, f a = .ok b ∧ g b = a ∧ P b) :
    ∃ bs, as.mapM f = .ok bs ∧ bs.map g = as ∧ ∀ b ∈ bs, P b := by
  induction as with
  | nil => exact ⟨[], rfl, rfl, nofun⟩
  | cons a rest ih =>
    obtain ⟨b, hb, hname, hP⟩ := h a List.mem_cons_self
    obtain ⟨bs, hbs, hnames, hrest⟩ := ih fun a' ha' => h a' (List.mem_cons_of_mem _ ha')
    refine ⟨b :: bs, ?_, by rw [List.map_cons, hname, hnames], List.forall_mem_cons.2 ⟨hP, hrest⟩⟩
    rw [List.mapM_cons, hb, ok_bind, hbs]
    rfl

namespace Registry

variable {r : Registry} {id : StudentId} {key : SectionKey} {student : Student}

/-- The entry is the view of the section with its key, with the place of the student on the
roster. -/
def Describes (r : Registry) (id : StudentId) (c : StudentCourse) : Prop :=
  ∃ ref s, r.catalog.lookup c.course.key = some (ref, s) ∧ c.course = s.view ∧ c.Places id s.roster

/-- The courses of a student are listed: those that the student holds, in that order. -/
lemma Consistent.coursesOf_eq (hr : r.Consistent) (known : r.students.get? id = some student) :
    ∃ courses, r.coursesOf id = .ok courses ∧ courses.map (·.course.key) = student.held ∧
      ∀ c ∈ courses, r.Describes id c := by
  have hseen : ∀ key ∈ student.held, ∃ c,
      (r.heldSection id key >>= fun found => found.2.seenBy id) = .ok c ∧ c.course.key = key ∧
        r.Describes id c := by
    intro key hkey
    obtain ⟨ref, s, found, hholds⟩ := hr.held_found known (mem_held.1 hkey)
    obtain ⟨c, hc⟩ := Section.exists_seenBy hholds
    obtain ⟨hview, hplaces⟩ := Section.places_of_seenBy (hr.agrees.orderly (seats_ledger found)) hc
    have hname : c.course.key = key := by
      rw [hview]
      exact hr.sound.catalog.key_of_lookup found
    refine ⟨c, ?_, hname, ref, s, hname ▸ found, hview, hplaces⟩
    rw [heldSection_eq_ok.2 found]
    exact hc
  obtain ⟨courses, hcourses, hlist⟩ := mapM_ok hseen
  exact ⟨courses, bind_eq_ok.2 ⟨student, student_eq_ok.2 known, hcourses⟩, hlist⟩

/-- Only known students get their courses listed. -/
lemma known_of_coursesOf {courses : List StudentCourse} (h : r.coursesOf id = .ok courses) :
    ∃ student, r.students.get? id = some student := by
  obtain ⟨student, hstudent, -⟩ := bind_eq_ok.1 h
  exact ⟨student, student_eq_ok.1 hstudent⟩

/-! ## The balance of places and courses -/

/-- Every place, section by section. -/
def placed (r : Registry) : List SeatClaim :=
  r.catalog.sections.flatMap fun s =>
    (s.roster.registered ++ s.roster.waitlist).map fun id => ⟨id, s.key⟩

/-- Every held course, student by student. -/
def holdings (r : Registry) : List SeatClaim :=
  r.students.entries.flatMap fun (id, student) => student.held.map fun key => ⟨id, key⟩

lemma Sound.mem_placed (hr : r.Sound) {c : SeatClaim} :
    c ∈ r.placed ↔ r.ledger.HasPlace c.student c.key := by
  have hroster : ∀ s : Section, c.student ∈ s.roster.registered ++ s.roster.waitlist ↔
      s.seats.holds c.student = true := fun s => List.mem_append.trans Seats.holds_iff.symm
  rw [placed, List.mem_flatMap]
  constructor
  · rintro ⟨s, hs, hc⟩
    obtain ⟨id, hid, rfl⟩ := List.mem_map.1 hc
    obtain ⟨⟨ref, s'⟩, found, rfl⟩ := Option.map_eq_some_iff.1 (hr.catalog.mem_sections.1 hs)
    exact ⟨s'.seats, seats_ledger found, (hroster s').1 hid⟩
  · rintro ⟨seats, hseats, hholds⟩
    obtain ⟨⟨ref, s⟩, found, rfl⟩ := Option.map_eq_some_iff.1 hseats
    have hkey := hr.catalog.key_of_lookup found
    refine ⟨s, hr.catalog.mem_sections.2 ?_, List.mem_map.2 ⟨_, (hroster s).2 hholds, ?_⟩⟩
    · rw [hkey, found]
      rfl
    · rw [hkey]

lemma mem_holdings {c : SeatClaim} :
    c ∈ r.holdings ↔ r.ledger.held c.student c.key.course = some c.key.group := by
  rw [holdings, List.mem_flatMap]
  constructor
  · rintro ⟨⟨id, student⟩, hentry, hc⟩
    obtain ⟨key, hkey, rfl⟩ := List.mem_map.1 hc
    rw [held_ledger (OrderedMap.get?_eq_some_iff.2 hentry)]
    exact mem_held.1 hkey
  · intro hheld
    obtain ⟨student, known, holds⟩ := Option.bind_eq_some_iff.1 hheld
    exact ⟨(c.student, student), OrderedMap.get?_eq_some_iff.1 known,
      List.mem_map.2 ⟨c.key, mem_held.2 holds, rfl⟩⟩

lemma Consistent.nodup_placed (hr : r.Consistent) (hc : r.catalog.Canonical) : r.placed.Nodup := by
  refine List.nodup_flatMap.2 ⟨fun s hs => ?_, ?_⟩
  · -- in one section the students are different
    obtain ⟨⟨ref, s'⟩, found, rfl⟩ := Option.map_eq_some_iff.1 (hr.sound.catalog.mem_sections.1 hs)
    have horderly := hr.agrees.orderly (seats_ledger found)
    have hroster : (s'.roster.registered ++ s'.roster.waitlist).Nodup :=
      List.nodup_append'.2 ⟨s'.seats.registered.nodup_items, horderly.nodup,
        fun _ hreg hwaits => horderly.separate hreg hwaits⟩
    exact hroster.map fun x y h => congrArg SeatClaim.student h
  · -- claims of different sections have different keys
    refine (List.pairwise_map.1 hc.nodup_keys).imp fun hne => ?_
    intro c hs ht
    obtain ⟨x, -, rfl⟩ := List.mem_map.1 hs
    obtain ⟨y, -, hkey⟩ := List.mem_map.1 ht
    exact hne (congrArg SeatClaim.key hkey).symm

lemma nodup_holdings (r : Registry) : r.holdings.Nodup := by
  refine List.nodup_flatMap.2 ⟨fun (id, student) _ => ?_, ?_⟩
  · refine (student.courses.nodup_entries.map ?_).map fun _ _ h => congrArg SeatClaim.key h
    rintro ⟨course, group⟩ ⟨course', group'⟩ h
    cases h
    rfl
  · refine (List.pairwise_map.1 r.students.nodup_keys).imp fun hne => ?_
    intro c hs ht
    obtain ⟨x, -, rfl⟩ := List.mem_map.1 hs
    obtain ⟨y, -, hid⟩ := List.mem_map.1 ht
    exact hne (congrArg SeatClaim.student hid).symm

/-- **Every place is a held course, and every held course a place.** -/
theorem Consistent.placed_perm_holdings (hr : r.Consistent) (hc : r.catalog.Canonical) :
    r.placed.Perm r.holdings := by
  refine (List.perm_ext_iff_of_nodup (hr.nodup_placed hc) r.nodup_holdings).2 fun c => ?_
  rw [hr.sound.mem_placed, mem_holdings]
  exact hr.agrees.hasPlace_iff c.student c.key

lemma length_placed (r : Registry) : r.placed.length =
    (r.catalog.sections.map fun s => s.view.registeredCount + s.view.waitlistCount).sum := by
  rw [placed, List.length_flatMap]
  congr 2
  funext s
  rw [List.length_map, List.length_append]
  rfl

lemma length_holdings (r : Registry) :
    r.holdings.length = (r.students.values.map fun s => s.courses.size).sum := by
  rw [holdings, List.length_flatMap, OrderedMap.values, List.map_map]
  congr 2
  funext e
  exact (List.length_map _).trans (List.length_map _)

end Registry

namespace Office

variable {o : Office} {id : StudentId} {key : SectionKey} {student : Student}

/-! ## Answers -/

/-- The query succeeds with this response. -/
def Answers (o : Office) (q : Query) (response : Response) : Prop :=
  (o.ask q).outcome = .done response

lemma outcome_query_map {α : Type} {x : Check α} {a : α} (f : α → Response) (h : x = .ok a) :
    ((query x).map f).outcome = .done (f a) := by
  rw [h]
  rfl

lemma answers_courses_iff {courses : List StudentCourse} :
    o.Answers (.courses id) (.courses courses) ↔ o.registry.coursesOf id = .ok courses := by
  show (((query (o.registry.coursesOf id)).announcing _ _).map _).outcome = _ ↔ _
  rcases o.registry.coursesOf id with (_ | _) | listed
  · exact iff_of_false nofun nofun
  · exact iff_of_false nofun nofun
  · show Outcome.done (Response.courses listed) = _ ↔ _
    simp

lemma answers_summary (known : o.registry.students.get? id = some student) :
    o.Answers (.summary id) (.summary student) :=
  outcome_query_map .summary (Registry.student_eq_ok.2 known)

lemma answers_roster {ref : Catalog.Ref} {s : Section}
    (found : o.registry.catalog.lookup key = some (ref, s)) :
    o.Answers (.roster key) (.roster s.roster) :=
  outcome_query_map .roster (bind_eq_ok.2 ⟨_, Registry.offered_eq_ok.2 found, rfl⟩)

lemma answers_offerings (o : Office) (department : DepartmentId) :
    o.Answers (.offerings department) (.offerings (o.registry.offerings department)) :=
  rfl

/-- A query shows the view of a section: among the courses of a student or in the listing of a
department. -/
inductive Shows (o : Office) : Offering → Prop
  | courses {id courses} (answered : o.Answers (.courses id) (.courses courses)) {c}
    (listed : c ∈ courses) : Shows o c.course
  | offerings {department views} (answered : o.Answers (.offerings department) (.offerings views))
    {v} (listed : v ∈ views) : Shows o v

/-- The queries say the same of students and sections. -/
structure QueriesAgree (o : Office) : Prop where
  /-- The courses of a known student are listed: those of the summary, once each, in ascending order
  of course, and each with the place that the student has on the roster. -/
  courses : ∀ id student, o.registry.students.get? id = some student →
    o.Answers (.summary id) (.summary student) ∧
      ∃ courses, o.Answers (.courses id) (.courses courses) ∧
        (courses.map (·.course.key.course)).Pairwise (fun c d => rank c < rank d) ∧
        (∀ key, key ∈ courses.map (·.course.key) ↔
          student.courses.get? key.course = some key.group) ∧
        ∀ c ∈ courses, ∃ roster, o.Answers (.roster c.course.key) (.roster roster) ∧
          c.Places id roster
  /-- Every view that is shown counts the students on the roster of its section. -/
  counts : ∀ v, o.Shows v → ∃ roster, o.Answers (.roster v.key) (.roster roster) ∧ v.Counts roster
  /-- Every section is shown. -/
  shown : ∀ s ∈ o.registry.catalog.sections, o.Shows s.view
  /-- All views together count as many students as all students hold courses. -/
  balance : (o.registry.catalog.sections.map fun s =>
      s.view.registeredCount + s.view.waitlistCount).sum =
    (o.registry.students.values.map fun s => s.courses.size).sum

/-- In a consistent registry the queries say the same. -/
lemma queriesAgree_of_consistent (hr : o.registry.Consistent) (hc : o.registry.catalog.Canonical) :
    o.QueriesAgree := by
  constructor
  case courses =>
    intro id student known
    obtain ⟨courses, hcourses, hkeys, hentries⟩ := hr.coursesOf_eq known
    refine ⟨answers_summary known, courses, answers_courses_iff.2 hcourses, ?_, fun key => ?_,
      fun c hc => ?_⟩
    · have hascending : student.held.Pairwise fun j k => rank j.course < rank k.course :=
        List.pairwise_map.2 student.courses.ascending
      rw [← hkeys, List.pairwise_map] at hascending
      exact List.pairwise_map.2 hascending
    · rw [hkeys]
      exact Registry.mem_held
    · obtain ⟨ref, s, found, -, hplaces⟩ := hentries c hc
      exact ⟨s.roster, answers_roster found, hplaces⟩
  case counts =>
    rintro v (⟨answered, listed⟩ | ⟨answered, listed⟩)
    · have hcourses := answers_courses_iff.1 answered
      obtain ⟨student, known⟩ := Registry.known_of_coursesOf hcourses
      obtain ⟨courses, hcourses', -, hentries⟩ := hr.coursesOf_eq known
      rw [hcourses, Except.ok.injEq] at hcourses'
      subst hcourses'
      obtain ⟨ref, s, found, hview, -⟩ := hentries _ listed
      exact ⟨s.roster, answers_roster found, hview ▸ s.view_counts⟩
    · cases answered
      obtain ⟨s, hs, rfl⟩ := List.mem_map.1 listed
      rw [Catalog.inDepartment, List.mem_mergeSort, List.mem_filter] at hs
      obtain ⟨⟨ref, s'⟩, found, rfl⟩ :=
        Option.map_eq_some_iff.1 (hr.sound.catalog.mem_sections.1 hs.1)
      exact ⟨s'.roster, answers_roster found, s'.view_counts⟩
  case shown =>
    intro s hs
    refine .offerings (o.answers_offerings s.department) (List.mem_map.2 ⟨s, ?_, rfl⟩)
    rw [Catalog.inDepartment, List.mem_mergeSort, List.mem_filter]
    exact ⟨hs, by simp⟩
  case balance =>
    rw [← Registry.length_placed, ← Registry.length_holdings]
    exact (hr.placed_perm_holdings hc).length_eq

/-- **In every state of every run of an office the queries agree.**  The registry is any that a
snapshot makes; the run is any list of calls, of settings of exam times, and of changes of the clock
and the outbox. -/
theorem run_queries_agree {snapshot : Snapshot} {r : Registry} (built : snapshot.build = .ok r)
    (clock : Instant) (outbox : Outbox) (turns : List Turn) :
    (run ⟨r, clock, outbox⟩ turns).2.QueriesAgree := by
  have hconsistent : r.Consistent := Snapshot.build_consistent built
  have hcanonical : r.catalog.Canonical := by
    obtain ⟨hs, rfl⟩ := Snapshot.build_eq_ok_iff.1 built
    exact hs.canonical_registry
  exact queriesAgree_of_consistent (hconsistent.run (o := ⟨r, clock, outbox⟩) turns)
    (run_catalog (o := ⟨r, clock, outbox⟩) hcanonical turns).1

/-- Student 2 moves up as student 1 leaves, student 1 waits for the group again, and the journal
does not take that student 2 leaves. -/
theorem run_queries_agree_small :
    let key : SectionKey := ⟨⟨100⟩, ⟨1⟩⟩
    let turns : List Turn := [
      .call (.request false (.drop ⟨1⟩ ⟨100⟩)),
      .call (.request false (.enroll ⟨1⟩ key)),
      .outbox (.script ⟨[], .refuse .closed⟩),
      .call (.request false (.staffDrop ⟨2⟩ ⟨100⟩))]
    let o := (run ⟨.small, .epoch, .script .accepting⟩ turns).2
    o.QueriesAgree ∧ o.registry.placed = [⟨⟨2⟩, key⟩, ⟨⟨1⟩, key⟩] ∧
      o.registry.holdings = [⟨⟨1⟩, key⟩, ⟨⟨2⟩, key⟩] ∧
      (o.registry.coursesOf ⟨1⟩).map (·.map (·.position)) = .ok [1] := by
  intro key turns o
  exact ⟨run_queries_agree Snapshot.small_build .epoch (.script .accepting) turns,
    by decide +kernel, by decide +kernel, by decide +kernel⟩

end Office

end CourseRegistration
