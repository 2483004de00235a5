import CourseRegistration.Proofs.Consistency
import Mathlib.Data.Nat.ModEq

/-!
# A ring of groups

The groups of one course form a ring: each has one seat and one place to wait, and student `i` of as
many students as there are groups starts out registered in group `i`.  Every student has the same
number of actions, and uses each for a move some fixed number of groups ahead around the ring.

This module describes the registry of such a course, the attempts of its students and the states
that they lead to.  It also settles the arithmetic: after `w` moves student `i` is in group
`place i w`, and students who have moved equally often are in different groups (`place_inj`).
-/

namespace CourseRegistration

open Journal

/-- A course whose groups form a ring, and everything about its groups and students that makes no
difference to the moves. -/
structure Rotation where
  /-- The number of groups, and of students. -/
  size : Nat
  /-- How many groups ahead a student moves. -/
  step : Nat
  /-- How many moves each student makes. -/
  rounds : Nat
  course : CourseId
  /-- What every group counts towards a student's units. -/
  units : UInt8
  department : Nat → DepartmentId
  lecturer : Nat → String
  gender : Nat → Gender
  windowStart : Nat → Int64
  departments : OrderedMap DepartmentId String
  two_le_size : 2 ≤ size
  /-- Groups are numbered by bytes. -/
  size_le : size ≤ 256
  /-- A move leads to another group. -/
  step_mod : step % size ≠ 0
  one_le_rounds : 1 ≤ rounds
  /-- Actions are counted in a byte. -/
  rounds_le : rounds ≤ 255

namespace Rotation

/-- The number of a student. -/
def student (i : Nat) : StudentId :=
  ⟨.ofNat i⟩

/-- The number of a group. -/
def group (g : Nat) : GroupId :=
  ⟨.ofNat g⟩

variable (rot : Rotation)

/-- The key of a group. -/
def key (g : Nat) : SectionKey :=
  ⟨rot.course, group g⟩

/-- Where student `i` is after `w` moves. -/
def place (i w : Nat) : Nat :=
  (i + w * rot.step) % rot.size

/-! ## The start -/

/-- A group at the start: one seat, which its student has, and one place to wait. -/
def groupAtStart (g : Nat) : Section where
  key := rot.key g
  department := rot.department g
  lecturer := rot.lecturer g
  units := rot.units
  examTime := 0
  hours := .unscheduled
  lock := .unlocked
  seats := (Seats.vacant 1 1).give (student g) .registered

/-- A student after some moves.  The units are just enough for one group. -/
def member (i w : Nat) : Student where
  id := student i
  gender := rot.gender i
  windowStart := rot.windowStart i
  maxUnits := rot.units.toUInt16
  units := rot.units.toUInt16
  actions := .ofNat (rot.rounds - w)
  courses := OrderedMap.empty.insert rot.course (group (rot.place i w))

/-- The registry at the start. -/
def registry : Registry where
  departments := rot.departments
  catalog := .ofSections ((List.range rot.size).map rot.groupAtStart)
  students := (List.range rot.size).foldl (fun m i => m.insert (student i) (rot.member i 0)) .empty

/-! ## Attempts -/

/-- The circumstances of an attempt: windows are open, and the journal takes what it is offered. -/
structure Setting where
  now : Instant
  outbox : Outbox
  /-- Whether the request was cancelled already. -/
  cancelled : Bool
  opened : ∀ i < rot.size, windowOpen (rot.windowStart i) now = true
  accepts : ∀ record, (outbox.offer cancelled record).1 = .taken

/-- The group that a student holds. -/
def current (r : Registry) (i : Nat) : Option GroupId :=
  (r.students.get? (student i)).bind (·.courses.get? rot.course)

/-- The group that is a step ahead of a group. -/
def next (g : GroupId) : GroupId :=
  group ((g.number.toNat + rot.step) % rot.size)

/-- A student asks to move a step ahead of the group that the student holds. -/
def attempt (r : Registry) (setting : rot.Setting) (i : Nat) : Option (Report Answer × Office) := do
  let g ← rot.current r i
  return Office.handle ⟨r, setting.now, setting.outbox⟩ setting.cancelled
    (.switchGroup (student i) ⟨rot.course, rot.next g⟩)

/-- The registries that attempts lead to; `wins i` is how many attempts of student `i` have
succeeded.  Anyone who has not made all moves may be the next to try. -/
inductive Reachable : Registry → (Nat → Nat) → Prop
  | start : Reachable rot.registry fun _ => 0
  | attempt {r wins i report o} (setting : rot.Setting) (before : Reachable r wins)
      (known : i < rot.size) (unfinished : wins i < rot.rounds)
      (tried : rot.attempt r setting i = some (report, o)) :
      Reachable o.registry
        (if report.outcome = .done .done then Function.update wins i (wins i + 1) else wins)

/-! ## Arithmetic of the ring -/

variable {rot} {g h i j w v : Nat} {id : StudentId}

lemma size_pos : 0 < rot.size :=
  Nat.lt_of_lt_of_le Nat.two_pos rot.two_le_size

lemma place_lt : rot.place i w < rot.size :=
  Nat.mod_lt _ size_pos

lemma place_zero (hi : i < rot.size) : rot.place i 0 = i := by
  rw [place, Nat.zero_mul, Nat.add_zero, Nat.mod_eq_of_lt hi]

/-- Moving a student is moving the place. -/
lemma place_add : (rot.place i w + v * rot.step) % rot.size = rot.place i (w + v) := by
  rw [place, place, Nat.mod_add_mod, Nat.add_assoc, ← Nat.add_mul]

lemma place_succ : (rot.place i w + rot.step) % rot.size = rot.place i (w + 1) := by
  rw [← place_add, Nat.one_mul]

lemma place_succ_ne : rot.place i (w + 1) ≠ rot.place i w := by
  intro h
  have hmod : rot.place i w + rot.step ≡ rot.place i w + 0 [MOD rot.size] := by
    rw [Nat.ModEq, place_succ, h, Nat.add_zero, Nat.mod_eq_of_lt place_lt]
  have hstep : rot.step ≡ 0 [MOD rot.size] := Nat.ModEq.add_left_cancel' _ hmod
  exact rot.step_mod hstep

/-- After equally many moves, different students are in different groups. -/
lemma place_inj (hi : i < rot.size) (hj : j < rot.size) (h : rot.place i w = rot.place j w) :
    i = j := by
  have hmod : i ≡ j [MOD rot.size] := Nat.ModEq.add_right_cancel' _ h
  exact Nat.ModEq.eq_of_lt_of_lt hmod hi hj

/-- Full turns lead back to the start. -/
lemma place_turns (hi : i < rot.size) (w : Nat) : rot.place i (rot.size * w) = i := by
  rw [place, Nat.mul_assoc, Nat.add_mul_mod_self_left, Nat.mod_eq_of_lt hi]

/-- Somebody is in every group when all have made equally many moves. -/
lemma exists_place (w : Nat) (hg : g < rot.size) : ∃ i < rot.size, rot.place i w = g := by
  have hturns : w * (rot.size - 1) + w = rot.size * w := by
    rw [← Nat.mul_succ, Nat.succ_eq_add_one, Nat.sub_add_cancel size_pos, Nat.mul_comm]
  refine ⟨rot.place g (w * (rot.size - 1)), place_lt, ?_⟩
  show (rot.place g (w * (rot.size - 1)) + w * rot.step) % rot.size = g
  rw [place_add, hturns, place_turns hg]

/-! ## Numbers -/

lemma toNat_group (hg : g < rot.size) : (group g).number.toNat = g :=
  UInt8.toNat_ofNat_of_lt' (Nat.lt_of_lt_of_le hg rot.size_le)

lemma toNat_student (hi : i < rot.size) : (student i).number.toNat = i := by
  refine UInt64.toNat_ofNat_of_lt' (Nat.lt_of_lt_of_le hi (rot.size_le.trans ?_))
  decide

lemma student_toNat (id : StudentId) : student id.number.toNat = id := by
  rw [student, UInt64.ofNat_toNat]

lemma group_toNat (g : GroupId) : group g.number.toNat = g := by
  rw [group, UInt8.ofNat_toNat]

lemma group_inj (hg : g < rot.size) (hh : h < rot.size) : group g = group h ↔ g = h := by
  constructor
  · intro he
    rw [← toNat_group hg, he, toNat_group hh]
  · rintro rfl
    rfl

lemma next_place : rot.next (group (rot.place i w)) = group (rot.place i (w + 1)) := by
  rw [next, toNat_group place_lt, place_succ]

/-! ## Students -/

lemma toNat_actions : (rot.member i w).actions.toNat = rot.rounds - w := by
  have hbound := rot.rounds_le
  refine UInt8.toNat_ofNat_of_lt' ?_
  show rot.rounds - w < 256
  omega

lemma actions_ne (hw : w < rot.rounds) : (rot.member i w).actions ≠ 0 := by
  intro h
  have hzero : (rot.member i w).actions.toNat = 0 := by
    rw [h]
    rfl
  rw [toNat_actions] at hzero
  omega

/-- A move takes a student one step ahead and spends one action. -/
lemma member_moved (hw : w < rot.rounds) :
    ((rot.member i w).hold (rot.key (rot.place i (w + 1))) (rot.member i w).units).spendAction =
      rot.member i (w + 1) := by
  have hactions : (rot.member i w).actions - 1 = (rot.member i (w + 1)).actions := by
    have hle : 1 ≤ (rot.member i w).actions := by
      rw [UInt8.le_iff_toNat_le, toNat_actions]
      show 1 ≤ rot.rounds - w
      omega
    rw [← UInt8.toNat_inj, UInt8.toNat_sub_of_le _ _ hle, toNat_actions, toNat_actions]
    show rot.rounds - w - 1 = rot.rounds - (w + 1)
    omega
  have hcourses : (rot.member i w).courses.insert rot.course (group (rot.place i (w + 1))) =
      (rot.member i (w + 1)).courses := by
    refine OrderedMap.ext_get? fun course => ?_
    simp only [member, OrderedMap.get?_insert]
    split_ifs <;> rfl
  show { rot.member i w with
    actions := (rot.member i w).actions - 1
    courses := (rot.member i w).courses.insert rot.course (group (rot.place i (w + 1))) } = _
  rw [hactions, hcourses]
  rfl

end Rotation

end CourseRegistration
