import CourseRegistration.Proofs.Snapshot

/-!
# Reading the journal back

The entries of the journal leave things out: who moves up when a registered seat is freed, whether
a student who changes groups is registered or waits, which group a dropped course was held in.
This module is about a reader of the journal who fills these in.  The reader keeps a `Book`: for
each section a sheet with its capacity, its registered students and its waitlist, and for each
student the held groups.  The reader does not know how many students may wait, nor anything else
that the office checks before it records a change.

`Book.replay?` is how the reader enters one entry; it is `none` if the book does not allow it.  The
headline is `replay_run`: a reader who starts from the book of a registry that was built, and
enters every record that the journal took since, has the book of the registry as it is now.
-/

namespace CourseRegistration

open Journal

/-! ## The book -/

/-- What a reader of the journal keeps of a section. -/
structure Sheet where
  capacity : UInt64
  registered : OrderedSet StudentId
  /-- The waiting students, head first. -/
  waitlist : List StudentId
  deriving DecidableEq

namespace Sheet

/-- The student is registered, or waits behind everyone else. -/
def add (t : Sheet) (id : StudentId) (waits : Bool) : Sheet :=
  if waits then { t with waitlist := t.waitlist ++ [id] }
  else { t with registered := t.registered.insert id }

/-- The student is gone, and if that freed a registered seat, the head of the waitlist has it. -/
def remove (t : Sheet) (id : StudentId) : Sheet :=
  let waiting := t.waitlist.filter (· ≠ id)
  if id ∈ t.registered then
    { t with
      registered := (t.registered.erase id).insertAll waiting.head?.toList
      waitlist := waiting.tail }
  else { t with waitlist := waiting }

/-- The capacity is another, and the listed students, who must be the first on the waitlist, are
registered. -/
def resize? (t : Sheet) (capacity : UInt64) (promoted : List StudentId) : Option Sheet :=
  if promoted <+: t.waitlist then
    some ⟨capacity, t.registered.insertAll promoted, t.waitlist.drop promoted.length⟩
  else none

end Sheet

/-- What a reader of the journal keeps. -/
@[ext] structure Book where
  sheets : SectionKey → Option Sheet
  /-- The group of each course that each student holds. -/
  held : StudentId → CourseId → Option GroupId

namespace Book

/-- The book with another sheet for a section. -/
def file (b : Book) (key : SectionKey) (t : Sheet) : Book :=
  { b with sheets := fun key' => if key' = key then some t else b.sheets key' }

/-- The book in which a student holds another group of a course, or none. -/
def enter (b : Book) (id : StudentId) (course : CourseId) (group : Option GroupId) : Book :=
  { b with held := fun id' course' =>
      if id' = id ∧ course' = course then group else b.held id' course' }

/-- Enters one entry of the journal. -/
def replay? (b : Book) : Entry → Option Book
  | .enroll id key waitlisted => do
    let t ← b.sheets key
    return (b.file key (t.add id waitlisted)).enter id key.course (some key.group)
  | .drop id course => do
    let group ← b.held id course
    let t ← b.sheets ⟨course, group⟩
    return (b.file ⟨course, group⟩ (t.remove id)).enter id course none
  | .switchGroup id key => do
    let source ← b.held id key.course
    let t ← b.sheets key
    let placed := b.file key (t.add id !(t.registered.size < t.capacity.toNat))
    let s ← placed.sheets ⟨key.course, source⟩
    return (placed.file ⟨key.course, source⟩ (s.remove id)).enter id key.course (some key.group)
  | .resize key capacity promoted => do
    let t ← b.sheets key
    return b.file key (← t.resize? capacity promoted)

/-- Enters the entries of the journal in order. -/
def replayAll? (b : Book) (entries : List Entry) : Option Book :=
  entries.foldlM replay? b

end Book

/-- The sheet of a section with these seats. -/
def Seats.sheet (s : Seats) : Sheet :=
  ⟨s.capacity, s.registered, s.waitlist⟩

/-- The book of a registry. -/
def Registry.book (r : Registry) : Book where
  sheets key := (r.catalog.lookup key).map (·.2.seats.sheet)
  held id course := (r.students.get? id).bind (·.courses.get? course)

/-! ## Sheets and seats -/

namespace Seats

variable {s : Seats} {x : StudentId} {place : Place}

lemma sheet_give : (s.give x place).sheet = s.sheet.add x (place = .waitlisted) := by
  cases place <;> rfl

/-- Whether the next place is a registered seat can be told from the sheet. -/
lemma sheet_give_next (h : s.nextPlace = some place) :
    (s.give x place).sheet = s.sheet.add x !(s.registered.size < s.capacity.toNat) := by
  rw [sheet_give]
  unfold nextPlace at h
  split_ifs at h with hroom hwait
  · cases h
    simp [hroom]
  · cases h
    simp [hroom]

lemma sheet_vacate (hs : s.Orderly) : (s.vacate x).sheet = s.sheet.remove x := by
  have hkept : x ∉ s.waitlist → s.waitlist.filter (· ≠ x) = s.waitlist := by
    intro hx
    refine List.filter_eq_self.2 fun y hy => ?_
    have hne : y ≠ x := fun h => hx (h ▸ hy)
    simpa using hne
  rcases vacate_cases s x with ⟨hx, hw, he⟩ | ⟨next, rest, hx, hw, he⟩ | ⟨hx, he⟩
  · have hnone := hkept (hs.separate hx)
    simp only [he, sheet, Sheet.remove, if_pos hx, hnone]
    rw [hw]
    rfl
  · have hnone := hkept (hs.separate hx)
    simp only [he, sheet, Sheet.remove, if_pos hx, hnone]
    rw [hw]
    rfl
  · -- a waiting student is on the list once
    have herase : s.waitlist.erase x = s.waitlist.filter (· ≠ x) := by
      rw [hs.nodup.erase_eq_filter]
      congr 1
      funext y
      simp [bne, beq_eq_decide]
    rw [he, sheet, herase]
    exact (if_neg hx).symm

lemma sheet_resize (capacity : UInt64) :
    s.sheet.resize? capacity (s.promoted capacity) = some (s.resize capacity).sheet := by
  have hhead : s.promoted capacity <+: s.waitlist := List.take_prefix _ _
  have hlength : (s.promoted capacity).length = s.promotable capacity := by
    rw [promoted, List.length_take]
    exact Nat.min_eq_left (Nat.min_le_right _ _)
  simp only [Sheet.resize?, sheet, if_pos hhead, hlength, resize]

lemma sheet_raise (capacity : UInt64) :
    s.sheet.resize? capacity [] = some { s with capacity := capacity }.sheet := by
  have hhead : [] <+: s.waitlist := List.nil_prefix
  simp only [Sheet.resize?, sheet, if_pos hhead, List.length_nil, List.drop_zero]
  rfl

end Seats

/-! ## The book of a ledger -/

namespace Ledger

/-- What a reader keeps of a ledger. -/
def book (l : Ledger) : Book :=
  ⟨fun key => (l.seats key).map Seats.sheet, l.held⟩

variable {l l' : Ledger} {key key' : SectionKey} {s : Seats} {t : Sheet} {id : StudentId}
  {course : CourseId} {group : Option GroupId} {entry : Entry} {entries : List Entry}

lemma sheets_book (found : l.seats key = some s) : l.book.sheets key = some s.sheet := by
  simp [book, found]

lemma book_seat : (l.seat key s).book = l.book.file key s.sheet := by
  ext1
  · funext key'
    simp only [book, Book.file, seats_seat]
    split_ifs <;> rfl
  · rfl

lemma book_assign : (l.assign id course group).book = l.book.enter id course group := by
  ext1
  · rfl
  · funext id' course'
    simp only [book, Book.enter, held_assign]

lemma file_comm {b : Book} {t t' : Sheet} (hne : key ≠ key') :
    (b.file key t).file key' t' = (b.file key' t').file key t := by
  ext1
  · funext k
    simp only [Book.file]
    split_ifs with h h'
    · exact absurd (h'.symm.trans h) hne
    · rfl
    · rfl
    · rfl
  · rfl

lemma sheets_file (b : Book) (key' : SectionKey) :
    (b.file key t).sheets key' = if key' = key then some t else b.sheets key' :=
  rfl

/-- **The reader keeps up with every step**, if nobody has two places in a section. -/
theorem Step.replay (h : Step l entry l') (hl : l.Agrees) :
    l.book.replay? entry = some l'.book := by
  cases h with
  | @enroll id key s place found fresh =>
    rw [book_assign, book_seat, Seats.sheet_give]
    simp only [Book.replay?, sheets_book found]
    rfl
  | @drop key id s holds found =>
    have hheld : l.book.held id key.course = some key.group := holds
    rw [book_assign, book_seat, Seats.sheet_vacate (hl.orderly found)]
    simp only [Book.replay?, hheld]
    show Option.bind (l.book.sheets key) _ = _
    rw [sheets_book found]
    rfl
  | @switchGroup id key source s t place holds other found found' vacant =>
    -- the reader places the student first and takes the old place back then
    have hheld : l.book.held id key.course = some source := holds
    have hne : ⟨key.course, source⟩ ≠ key := fun h => other (congrArg SectionKey.group h)
    have hsource : ∀ t', (l.book.file key t').sheets ⟨key.course, source⟩ = some s.sheet := by
      intro t'
      rw [sheets_file, if_neg hne]
      exact sheets_book found
    rw [book_assign, book_seat, book_seat, Seats.sheet_vacate (hl.orderly found),
      Seats.sheet_give_next vacant, file_comm hne]
    simp only [Book.replay?, hheld, sheets_book found', Option.bind_eq_bind, Option.bind_some,
      hsource]
    rfl
  | resize capacity found =>
    rw [book_seat]
    simp only [Book.replay?, sheets_book found, Option.bind_eq_bind, Option.bind_some,
      Seats.sheet_resize]
    rfl
  | raise capacity found =>
    rw [book_seat]
    simp only [Book.replay?, sheets_book found, Option.bind_eq_bind, Option.bind_some,
      Seats.sheet_raise]
    rfl

theorem Path.replay (h : Path l entries l') (hl : l.Agrees) :
    l.book.replayAll? entries = some l'.book := by
  induction h with
  | nil => rfl
  | @cons l entry l' entries l'' step path ih =>
    have hrest := ih (step.agrees hl)
    unfold Book.replayAll? at hrest ⊢
    rw [List.foldlM_cons, step.replay hl]
    exact hrest

end Ledger

/-! ## Runs -/

namespace Registry

variable {r r' : Registry} {now : Instant} {request : Request} {records : List Record}

lemma book_ledger (r : Registry) : r.ledger.book = r.book := by
  ext1
  · funext key
    simp only [Ledger.book, Registry.ledger, book, Option.map_map]
    rfl
  · rfl

/-- Everything in the registry is in its book: every section has its sheet, every student the
student's courses. -/
lemma Sound.sheets_book (hr : r.Sound) {ref : Catalog.Ref} {s : Section}
    (h : r.catalog.get? ref = some s) : r.book.sheets s.key = some s.seats.sheet := by
  simp [book, hr.catalog.lookup_key h]

lemma Effect.replay (h : r.Effect now request records r') (hr : r.Consistent) :
    r.book.replayAll? (records.map (·.entry)) = some r'.book := by
  have hpath := (h.path hr.sound).replay hr.agrees
  rwa [book_ledger, book_ledger] at hpath

end Registry

namespace Office

/-- **The journal tells who has which place.**  Whoever enters the records that a run got into the
journal, in order, into the book of the registry that it started from, ends with the book of the
registry that it led to: the capacity, the registered students and the waitlist of every section,
and the held courses of every student. -/
theorem replay_run {snapshot : Snapshot} {r : Registry} (built : snapshot.build = .ok r)
    (clock : Instant) (outbox : Outbox) (turns : List Turn) :
    let (reports, o) := run ⟨r, clock, outbox⟩ turns
    ∃ b, r.book.replayAll? ((Report.journal reports).map (·.entry)) = some b ∧
      b = o.registry.book ∧
      (∀ ref s, o.registry.catalog.get? ref = some s →
        b.sheets s.key = some ⟨s.seats.capacity, s.seats.registered, s.seats.waitlist⟩) ∧
      (∀ id student, o.registry.students.get? id = some student →
        ∀ course, b.held id course = student.courses.get? course) := by
  have hstart : r.Consistent := Snapshot.build_consistent built
  let P : List Record → Registry → Prop := fun log r' =>
    r'.Consistent ∧ r.book.replayAll? (log.map (·.entry)) = some r'.book
  have hend : P (Report.journal (run ⟨r, clock, outbox⟩ turns).1)
      (run ⟨r, clock, outbox⟩ turns).2.registry := by
    refine @run_keeps P ?_ ?_ turns ⟨r, clock, outbox⟩ [] ⟨hstart, rfl⟩
    · intro log now r₁ request records r₂ h effect
      refine ⟨effect.consistent h.1, ?_⟩
      have hlog := h.2
      have hrecords := effect.replay h.1
      unfold Book.replayAll? at hlog hrecords ⊢
      rw [List.map_append, List.foldlM_append, hlog]
      exact hrecords
    · intro log r₁ ref time h
      refine ⟨h.1.setExamTime ref time, ?_⟩
      rw [h.2, ← Registry.book_ledger, ← Registry.book_ledger, h.1.sound.ledger_setExamTime]
  obtain ⟨hconsistent, hreplay⟩ := hend
  refine ⟨_, hreplay, rfl, fun ref s hs => hconsistent.sound.sheets_book hs, ?_⟩
  intro id student hstudent course
  simp [Registry.book, hstudent]

/-- Student 1 changes groups, student 2 moves up, and student 3 is let in by force. -/
theorem replay_run_small :
    let turns : List Turn := [
      .call (.request false (.switchGroup ⟨1⟩ ⟨⟨100⟩, ⟨2⟩⟩)),
      .call (.request false (.staffEnroll ⟨3⟩ ⟨⟨100⟩, ⟨1⟩⟩))]
    let (reports, o) := run ⟨.small, .epoch, .script .accepting⟩ turns
    Registry.small.book.replayAll? ((Report.journal reports).map (·.entry)) =
      some o.registry.book := by
  intro turns
  obtain ⟨b, hreplay, rfl, -⟩ :=
    replay_run Snapshot.small_build .epoch (.script .accepting) turns
  exact hreplay

end Office

end CourseRegistration
