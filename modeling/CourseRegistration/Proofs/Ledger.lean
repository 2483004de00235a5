import CourseRegistration.Proofs.Catalog
import CourseRegistration.Proofs.Effects
import CourseRegistration.Proofs.Ordered
import CourseRegistration.Proofs.Seats
import Mathlib.Logic.Function.Basic

/-!
# The ledger of a registry

A registry says twice who has a place where: its sections have rosters, its students have courses.
The `Ledger` keeps these two accounts and nothing else.  It is a view that forgets how sections are
filed, so replacing one section or one student changes it at one point (`ledger_putSection`,
`ledger_reassign`).

`Ledger.Step` is what one journal entry stands for in these terms.  `Effect.path` says that every
effect of a request goes through the steps of its records, in their order.  Everything that is known
of rosters and holdings in a running office rests on this one statement: what each step keeps is
kept, and what each step's entry tells is told by the journal.
-/

namespace CourseRegistration

open Journal

/-- The two accounts of who has a place where. -/
structure Ledger where
  /-- The seats of each section, as the sections have them. -/
  seats : SectionKey → Option Seats
  /-- The group of each course, as the students hold them. -/
  held : StudentId → CourseId → Option GroupId

namespace Ledger

/-- The ledger with other seats in a section. -/
def seat (l : Ledger) (key : SectionKey) (s : Seats) : Ledger :=
  { l with seats := Function.update l.seats key (some s) }

/-- The ledger in which a student holds another group of a course, or none. -/
def assign (l : Ledger) (id : StudentId) (course : CourseId) (group : Option GroupId) : Ledger :=
  { l with held := Function.update l.held id (Function.update (l.held id) course group) }

variable {l l' : Ledger} {key key' : SectionKey} {s s' : Seats} {id id' : StudentId}
  {course course' : CourseId} {group group' : Option GroupId}

@[simp] lemma seats_seat :
    (l.seat key s).seats key' = if key' = key then some s else l.seats key' := by
  simp [seat, Function.update_apply]

@[simp] lemma held_seat : (l.seat key s).held = l.held :=
  rfl

@[simp] lemma seats_assign : (l.assign id course group).seats = l.seats :=
  rfl

@[simp] lemma held_assign :
    (l.assign id course group).held id' course' =
      if id' = id ∧ course' = course then group else l.held id' course' := by
  by_cases hid : id' = id
  · subst hid
    simp [assign, Function.update_apply]
  · simp [assign, hid]

lemma assign_assign : (l.assign id course group).assign id course group' =
    l.assign id course group' := by
  simp [assign]

lemma seat_assign :
    (l.assign id course group).seat key s = (l.seat key s).assign id course group :=
  rfl

end Ledger

/-! ## The ledger of a changed registry -/

namespace Student

lemma get?_hold (s : Student) (key : SectionKey) (units : UInt16) (c : CourseId) :
    (s.hold key units).courses.get? c =
      if c = key.course then some key.group else s.courses.get? c :=
  OrderedMap.get?_insert _ _ _ _

lemma get?_letGo (s : Student) (course : CourseId) (units : UInt8) (c : CourseId) :
    (s.letGo course units).courses.get? c = if c = course then none else s.courses.get? c :=
  OrderedMap.get?_erase _ _ _

end Student

namespace Registry

/-- What the sections and the students of a registry say. -/
def ledger (r : Registry) : Ledger where
  seats key := (r.catalog.lookup key).map (·.2.seats)
  held id course := (r.students.get? id).bind (·.courses.get? course)

/-- Sections are found under their keys, and students under their numbers. -/
structure Sound (r : Registry) : Prop where
  catalog : r.catalog.Sound
  /-- A student is filed under the student's own number. -/
  filed : ∀ {id student}, r.students.get? id = some student → student.id = id

variable {r r' : Registry} {now : Instant} {request : Request} {records : List Record}
  {ref ref' : Catalog.Ref} {key : SectionKey} {s s' : Section} {id : StudentId}
  {student student' : Student} {course : CourseId} {group : GroupId}

lemma seats_ledger (found : r.catalog.lookup key = some (ref, s)) :
    r.ledger.seats key = some s.seats := by
  simp [ledger, found]

lemma held_ledger (known : r.students.get? id = some student) :
    r.ledger.held id = student.courses.get? := by
  simp [ledger, known]

lemma ledger_putSection (found : r.catalog.lookup key = some (ref, s)) (s' : Section)
    (hk : s'.key = s.key) :
    (r.putSection ref s').ledger = r.ledger.seat key s'.seats := by
  have hlookup := Catalog.lookup_set found s' (by rw [hk])
  simp only [ledger, putSection, Ledger.seat, Ledger.mk.injEq, and_true]
  funext key'
  rw [hlookup, Function.update_apply]
  split_ifs <;> rfl

lemma ledger_putSeats (found : r.catalog.lookup key = some (ref, s)) (seats : Seats) :
    (r.putSection ref (s.withSeats seats)).ledger = r.ledger.seat key seats :=
  ledger_putSection found _ rfl

/-- Other seats in a section and another group of a student are one change in each account. -/
lemma ledger_reassign (hr : r.Sound) (found : r.catalog.lookup key = some (ref, s)) (seats : Seats)
    (known : r.students.get? id = some student) (student' : Student)
    (hid : student'.id = student.id) {group : Option GroupId}
    (hcourses : ∀ c,
      student'.courses.get? c = if c = course then group else student.courses.get? c) :
    ((r.putSection ref (s.withSeats seats)).putStudent student').ledger =
      (r.ledger.seat key seats).assign id course group := by
  have hfiled : student'.id = id := hid.trans (hr.filed known)
  rw [← ledger_putSeats found]
  simp only [ledger, putStudent, Ledger.assign, Ledger.mk.injEq, true_and]
  funext id' c
  rw [OrderedMap.get?_insert, hfiled]
  by_cases h : id' = id
  · subst h
    simp [hcourses, putSection, known, Function.update_apply]
  · simp [h]

/-- What is found under a key once the section of another key has been replaced. -/
lemma lookup_putSeats_of_ne (found : r.catalog.lookup key = some (ref, s)) (seats : Seats)
    {key' : SectionKey} (hne : key' ≠ key) :
    (r.putSection ref (s.withSeats seats)).catalog.lookup key' = r.catalog.lookup key' :=
  (Catalog.lookup_set found (s.withSeats seats) rfl key').trans (if_neg hne)

/-- What is found under the key of a section that has been replaced. -/
lemma lookup_putSeats_self (found : r.catalog.lookup key = some (ref, s)) (seats : Seats) :
    (r.putSection ref (s.withSeats seats)).catalog.lookup key = some (ref, s.withSeats seats) :=
  (Catalog.lookup_set found (s.withSeats seats) rfl key).trans (if_pos rfl)

/-- The group that a student moves to is found unchanged once the other group has been replaced. -/
lemma lookup_putSeats_of_other {source destination : Section} {group : GroupId}
    (found : r.catalog.lookup ⟨key.course, group⟩ = some (ref, source)) (other : group ≠ key.group)
    (found' : r.catalog.lookup key = some (ref', destination)) (seats : Seats) :
    (r.putSection ref (source.withSeats seats)).catalog.lookup key = some (ref', destination) := by
  have hne : key ≠ ⟨key.course, group⟩ := fun h => other (congrArg SectionKey.group h).symm
  exact (lookup_putSeats_of_ne found seats hne).trans found'

lemma putSection_putSection (r : Registry) (ref : Catalog.Ref) (s t : Section) :
    (r.putSection ref s).putSection ref t = r.putSection ref t := by
  simp [putSection, Catalog.set_set]

namespace Sound

lemma putSection (hr : r.Sound) (found : r.catalog.lookup key = some (ref, s))
    (hk : s'.key = s.key) : (r.putSection ref s').Sound :=
  ⟨hr.catalog.set (Catalog.get?_of_lookup found) hk, hr.filed⟩

lemma putSeats (hr : r.Sound) (found : r.catalog.lookup key = some (ref, s)) (seats : Seats) :
    (r.putSection ref (s.withSeats seats)).Sound :=
  hr.putSection found rfl

lemma putStudent (hr : r.Sound) : (r.putStudent student).Sound := by
  refine ⟨hr.catalog, fun {id st} h => ?_⟩
  rw [Registry.putStudent, OrderedMap.get?_insert] at h
  split_ifs at h with hid
  · cases h
    exact hid.symm
  · exact hr.filed h

/-- The time of an exam is in neither account. -/
lemma ledger_setExamTime (hr : r.Sound) (ref : Catalog.Ref) (time : Int64) :
    (r.setExamTime ref time).ledger = r.ledger := by
  unfold Registry.setExamTime
  cases h : r.catalog.get? ref with
  | none => rfl
  | some s =>
    have found := hr.catalog.lookup_key h
    refine (ledger_putSection found { s with examTime := time } rfl).trans ?_
    simp only [Ledger.seat, ← seats_ledger found, Function.update_eq_self]

protected lemma setExamTime (hr : r.Sound) (ref : Catalog.Ref) (time : Int64) :
    (r.setExamTime ref time).Sound := by
  unfold Registry.setExamTime
  cases h : r.catalog.get? ref with
  | none => exact hr
  | some s => exact hr.putSection (hr.catalog.lookup_key h) rfl

end Sound

end Registry

/-! ## Steps -/

namespace Ledger

/-- What one journal entry stands for. -/
inductive Step (l : Ledger) : Entry → Ledger → Prop
  /-- A student who holds no group of the course is given a place. -/
  | enroll {id key s} (place : Place) (found : l.seats key = some s)
      (fresh : l.held id key.course = none) :
      Step l (.enroll id key (place = .waitlisted))
        ((l.seat key (s.give id place)).assign id key.course (some key.group))
  /-- A student who has a place loses it. -/
  | drop (key) {id s} (holds : l.held id key.course = some key.group)
      (found : l.seats key = some s) :
      Step l (.drop id key.course) ((l.seat key (s.vacate id)).assign id key.course none)
  /-- A student gets the next place of another group and loses the old one. -/
  | switchGroup {id key source s t place} (holds : l.held id key.course = some source)
      (other : source ≠ key.group) (found : l.seats ⟨key.course, source⟩ = some s)
      (found' : l.seats key = some t) (vacant : t.nextPlace = some place) :
      Step l (.switchGroup id key)
        (((l.seat ⟨key.course, source⟩ (s.vacate id)).seat key (t.give id place)).assign id
          key.course (some key.group))
  /-- A section gets another capacity, and waiting students move up. -/
  | resize {key s} (capacity : UInt64) (found : l.seats key = some s) :
      Step l (.resize key capacity (s.promoted capacity)) (l.seat key (s.resize capacity))
  /-- A section gets another capacity, and nobody moves up. -/
  | raise {key s} (capacity : UInt64) (found : l.seats key = some s) :
      Step l (.resize key capacity []) (l.seat key { s with capacity := capacity })

/-- The steps of a list of entries, one after the other. -/
inductive Path : Ledger → List Entry → Ledger → Prop
  | nil {l} : Path l [] l
  | cons {l entry l' entries l''} (step : Step l entry l') (path : Path l' entries l'') :
      Path l (entry :: entries) l''

lemma Step.path {entry : Entry} (h : Step l entry l') : Path l [entry] l' :=
  .cons h .nil

end Ledger

namespace Registry

variable {r r' : Registry} {now : Instant} {request : Request} {records : List Record}

lemma Effect.sound (h : r.Effect now request records r') (hr : r.Sound) : r'.Sound := by
  cases h with
  | nothing => exact hr
  | enroll _ _ found => exact (hr.putSeats found _).putStudent
  | drop _ _ _ _ found => exact (hr.putSeats found _).putStudent
  | switchGroup _ _ _ _ other found found' =>
    exact ((hr.putSeats found _).putSeats
      (lookup_putSeats_of_other found other found' _) _).putStudent
  | staffEnroll _ found => exact (hr.putSeats found _).putStudent
  | raise _ found => exact hr.putSeats found _
  | raiseAndEnroll _ found => exact (hr.putSeats found _).putStudent
  | staffDrop _ _ found => exact (hr.putSeats found _).putStudent
  | resize found => exact hr.putSeats found _

/-- **The effect of a request on the ledger is that of its records**, entry by entry. -/
theorem Effect.path (h : r.Effect now request records r') (hr : r.Sound) :
    r.ledger.Path (records.map (·.entry)) r'.ledger := by
  cases h with
  | nothing => exact .nil
  | @enroll id key student ref wanted units place known _ found _ _ _ fresh =>
    have hkey := hr.catalog.key_of_lookup found
    rw [ledger_reassign hr found _ known (student.hold key units) rfl (student.get?_hold key units)]
    simp only [List.map_cons, List.map_nil, Section.record, hkey]
    exact (Ledger.Step.enroll place (seats_ledger found) (by rw [held_ledger known, fresh])).path
  | @drop id course student group ref held known _ _ holds found =>
    have hkey := hr.catalog.key_of_lookup found
    obtain rfl := hr.filed known
    rw [ledger_reassign hr found _ known (student.letGo course held.units).spendAction rfl
      (student.get?_letGo course held.units)]
    simp only [List.map_cons, List.map_nil, Section.record, hkey]
    exact (Ledger.Step.drop ⟨course, group⟩ (by rw [held_ledger known, holds])
      (seats_ledger found)).path
  | @switchGroup id key student group ref source ref' destination total place known _ _ holds other
      found found' _ _ _ _ _ vacant =>
    have hkey := hr.catalog.key_of_lookup found
    have hkey' := hr.catalog.key_of_lookup found'
    have hfound' := lookup_putSeats_of_other found other found' (source.seats.vacate id)
    rw [ledger_reassign (hr.putSeats found _) hfound' _ known
      (student.hold key (Student.subUnits total source.units)).spendAction rfl
      (student.get?_hold key (Student.subUnits total source.units)), ledger_putSeats found]
    simp only [List.map_cons, List.map_nil, Section.record, hkey, hkey']
    exact (Ledger.Step.switchGroup (by rw [held_ledger known, holds]) other (seats_ledger found)
      (seats_ledger found') vacant).path
  | @staffEnroll id key student ref wanted known found fresh =>
    have hkey := hr.catalog.key_of_lookup found
    rw [ledger_reassign hr found _ known
      (student.hold key (Student.addUnits student.units wanted.units)) rfl
      (student.get?_hold key _)]
    simp only [List.map_cons, List.map_nil, Section.record, hkey]
    exact (Ledger.Step.enroll .registered (seats_ledger found)
      (by rw [held_ledger known, fresh])).path
  | @raise id key student ref wanted known found =>
    have hkey := hr.catalog.key_of_lookup found
    rw [Section.grown, ledger_putSeats found]
    simp only [List.map_cons, List.map_nil, Section.record, hkey]
    exact (Ledger.Step.raise _ (seats_ledger found)).path
  | @raiseAndEnroll id key student ref wanted known found fresh =>
    have hkey := hr.catalog.key_of_lookup found
    -- the second step starts from the ledger in which the section has grown
    have hgrown := lookup_putSeats_self found
      { wanted.seats with capacity := wanted.seats.capacity + 1 }
    rw [← putSection_putSection r ref wanted.grown, Section.grown,
      ledger_reassign (hr.putSeats found _) hgrown _ known
      (student.hold key (Student.addUnits student.units wanted.units)) rfl
      (student.get?_hold key _), ledger_putSeats found]
    simp only [List.map_cons, List.map_nil, Section.record, hkey]
    refine .cons (.raise _ (seats_ledger found)) (Ledger.Step.enroll .registered ?_ ?_).path
    · simp [Section.withSeats]
    · rw [Ledger.held_seat, held_ledger known, fresh]
  | @staffDrop id course student group ref held known holds found =>
    have hkey := hr.catalog.key_of_lookup found
    obtain rfl := hr.filed known
    rw [ledger_reassign hr found _ known (student.letGo course held.units) rfl
      (student.get?_letGo course held.units)]
    simp only [List.map_cons, List.map_nil, Section.record, hkey]
    exact (Ledger.Step.drop ⟨course, group⟩ (by rw [held_ledger known, holds])
      (seats_ledger found)).path
  | @resize key ref s capacity found =>
    have hkey := hr.catalog.key_of_lookup found
    rw [ledger_putSeats found]
    simp only [List.map_cons, List.map_nil, Section.record, hkey]
    exact (Ledger.Step.resize capacity (seats_ledger found)).path

end Registry

end CourseRegistration
