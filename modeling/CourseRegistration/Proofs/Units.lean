import CourseRegistration.Proofs.StudentSteps
import Mathlib.Algebra.GroupWithZero.Nat

/-!
# Exact totals of units

A student's total is kept as one word, added to and taken from as courses come and go.  What it
should be is the sum over the courses that the student holds (`Registry.unitsOf`), which needs no
word to fit into.  The two are the same to begin with and stay the same (`Student.Step.exact`),
unless staff give a student more courses than the word can count.

The units of a section never change, so the sum changes only with the student's courses.
-/

namespace CourseRegistration

open Journal

/-! ## Words -/

namespace Student

variable {total sum : UInt16} {units : UInt8}

lemma addUnits?_eq_some_iff : addUnits? total units = some sum ↔
    total.toNat + units.toNat < UInt16.size ∧ sum.toNat = total.toNat + units.toNat := by
  have hunits : units.toUInt16.toNat = units.toNat := UInt8.toNat_toUInt16 units
  have hadd : total.toNat + units.toNat < UInt16.size →
      (total + units.toUInt16).toNat = total.toNat + units.toNat := by
    intro hfits
    rw [UInt16.toNat_add, hunits]
    exact Nat.mod_eq_of_lt hfits
  unfold addUnits?
  split_ifs with hfits
  · rw [Option.some.injEq, ← UInt16.toNat_inj, hadd hfits]
    simp [hfits, eq_comm]
  · simp [hfits]

/-- Adding units to a total stops at the largest word. -/
lemma toNat_addUnits (total : UInt16) (units : UInt8) :
    (addUnits total units).toNat = min 65535 (total.toNat + units.toNat) := by
  unfold addUnits
  cases hsum : addUnits? total units with
  | none =>
    have hfits : ¬ total.toNat + units.toNat < UInt16.size := by
      intro hfits
      simp [addUnits?, hfits] at hsum
    have hlast : (65535 : UInt16).toNat = 65535 := rfl
    rw [Option.getD_none, hlast]
    simp only [UInt16.size] at hfits
    omega
  | some sum =>
    obtain ⟨hfits, heq⟩ := addUnits?_eq_some_iff.1 hsum
    rw [Option.getD_some, heq]
    simp only [UInt16.size] at hfits
    omega

lemma toNat_subUnits (total : UInt16) (units : UInt8) :
    (subUnits total units).toNat = total.toNat - units.toNat := by
  have hunits : units.toUInt16.toNat = units.toNat := UInt8.toNat_toUInt16 units
  unfold subUnits
  split_ifs with hle
  · rw [UInt16.toNat_sub_of_le _ _ hle, hunits]
  · rw [UInt16.le_iff_toNat_le, hunits] at hle
    have hzero : (0 : UInt16).toNat = 0 := rfl
    rw [hzero]
    omega

/-- Adding units of many sections gives their sum, or the largest word if that is less. -/
lemma toNat_foldl_addUnits {α : Type} (f : α → UInt8) (l : List α) (total : UInt16) :
    (l.foldl (fun total a => addUnits total (f a)) total).toNat =
      min 65535 (total.toNat + (l.map fun a => (f a).toNat).sum) := by
  induction l generalizing total with
  | nil =>
    have hlt := total.toNat_lt
    rw [List.foldl_nil, List.map_nil, List.sum_nil]
    omega
  | cons a rest ih =>
    rw [List.foldl_cons, ih, toNat_addUnits, List.map_cons, List.sum_cons]
    omega

/-! ## Held courses -/

variable {s : Student} {key : SectionKey} {course : CourseId} {group : GroupId}

/-- A new course adds its section to those that the student holds. -/
lemma held_hold_perm (fresh : s.courses.get? key.course = none) (units : UInt16) :
    (s.hold key units).held.Perm (key :: s.held) :=
  (OrderedMap.entries_insert_perm fresh key.group).map _

/-- A course that the student lets go of takes its section along and no other. -/
lemma held_letGo_perm (holds : s.courses.get? course = some group) (units : UInt8) :
    s.held.Perm (⟨course, group⟩ :: (s.letGo course units).held) :=
  (OrderedMap.entries_erase_perm holds).map _

/-- Holding another group of a course is letting go of the course and holding the group. -/
lemma held_hold_letGo (s : Student) (key : SectionKey) (units : UInt16) (units' : UInt8) :
    ((s.letGo key.course units').hold key units).held = (s.hold key units).held := by
  unfold held hold letGo
  dsimp only
  rw [OrderedMap.insert_erase]

/-! ## Actions -/

lemma toNat_actions_spendAction (able : s.actions ≠ 0) :
    s.spendAction.actions.toNat + 1 = s.actions.toNat := by
  have hone : (1 : UInt8).toNat = 1 := rfl
  have hpos : s.actions.toNat ≠ 0 := fun h => able (UInt8.toNat_inj.1 h)
  have hle : 1 ≤ s.actions := UInt8.le_iff_toNat_le.2 (by omega)
  show (s.actions - 1).toNat + 1 = _
  rw [UInt8.toNat_sub_of_le _ _ hle, hone]
  omega

end Student

/-! ## Sums -/

namespace Registry

variable {r r' : Registry} {now : Instant} {request : Request} {records : List Record}
  {key : SectionKey} {ref : Catalog.Ref} {s : Section} {student student' : Student}
  {course : CourseId} {group : GroupId}

/-- The units of the section under the key, none if there is no such section. -/
def unitsAt (r : Registry) (key : SectionKey) : Nat :=
  ((r.catalog.lookup key).map (·.2.units.toNat)).getD 0

/-- The sum of the units of everything that the student holds. -/
def unitsOf (r : Registry) (student : Student) : Nat :=
  (student.held.map r.unitsAt).sum

/-- The student's total is what it should be. -/
def Exact (r : Registry) (student : Student) : Prop :=
  student.units.toNat = r.unitsOf student

lemma unitsAt_eq (found : r.catalog.lookup key = some (ref, s)) :
    r.unitsAt key = s.units.toNat := by
  simp [unitsAt, found]

lemma unitsOf_hold (fresh : student.courses.get? key.course = none) (units : UInt16) :
    r.unitsOf (student.hold key units) = r.unitsAt key + r.unitsOf student :=
  ((Student.held_hold_perm fresh units).map r.unitsAt).sum_nat.trans (List.sum_cons ..)

lemma unitsOf_letGo (holds : student.courses.get? course = some group) (units : UInt8) :
    r.unitsOf student = r.unitsAt ⟨course, group⟩ + r.unitsOf (student.letGo course units) :=
  ((Student.held_letGo_perm holds units).map r.unitsAt).sum_nat.trans (List.sum_cons ..)

/-- In another group of a course the student has the units of that group in place of the old ones.
-/
lemma unitsOf_hold_over (holds : student.courses.get? key.course = some group) (units : UInt16) :
    r.unitsOf (student.hold key units) + r.unitsAt ⟨key.course, group⟩ =
      r.unitsAt key + r.unitsOf student := by
  have hfresh : (student.letGo key.course 0).courses.get? key.course = none := by
    rw [student.get?_letGo, if_pos rfl]
  have hleft := r.unitsOf_letGo holds 0
  have hheld := r.unitsOf_hold hfresh units
  rw [unitsOf, student.held_hold_letGo key units 0, ← unitsOf] at hheld
  omega

/-- Spending an action changes nothing about what is held. -/
lemma unitsOf_spendAction (r : Registry) (student : Student) :
    r.unitsOf student.spendAction = r.unitsOf student :=
  rfl

lemma unitsOf_congr (h : r'.unitsAt = r.unitsAt) (student : Student) :
    r'.unitsOf student = r.unitsOf student := by
  unfold unitsOf
  rw [h]

lemma StepAt.unitsAt_eq (h : r.StepAt request records r' key) : r'.unitsAt key = r.unitsAt key := by
  rcases h with ⟨hnone, hnone'⟩ | ⟨ref, s, seats, found, found', -⟩
  · unfold unitsAt
    rw [hnone, hnone']
  · rw [Registry.unitsAt_eq found, Registry.unitsAt_eq found']
    rfl

/-- No request changes the units of a section. -/
lemma Effect.unitsAt_eq (h : r.Effect now request records r') (hr : r.Consistent) :
    r'.unitsAt = r.unitsAt :=
  funext fun key => (h.stepAt hr key).unitsAt_eq

lemma unitsAt_setExamTime (hr : r.Sound) (ref : Catalog.Ref) (time : Int64) :
    (r.setExamTime ref time).unitsAt = r.unitsAt := by
  funext key
  unfold unitsAt
  rw [lookup_setExamTime hr, Option.map_map]
  congr 2
  funext ⟨ref', s⟩
  show (if ref' = ref then { s with examTime := time } else s : Section).units.toNat = s.units.toNat
  split_ifs <;> rfl

end Registry

/-! ## Totals -/

/-- **A step keeps the total exact**, as long as it fits its word where staff give out courses. -/
theorem Student.Step.exact {r : Registry} {s s' : Student} {request : Request}
    (h : s.Step r request s') (hexact : r.Exact s)
    (hfits : ∀ key, request = .staffEnroll s.id key → r.unitsOf s' < UInt16.size) :
    r.Exact s' := by
  have htotal : s.units.toNat = r.unitsOf s := hexact
  cases h with
  | stay => exact hexact
  | @enroll key ref wanted units found _ sum _ fresh =>
    obtain ⟨-, hsum⟩ := addUnits?_eq_some_iff.1 sum
    show units.toNat = _
    rw [Registry.unitsOf_hold fresh, Registry.unitsAt_eq found]
    omega
  | @drop course group ref held holds found =>
    have hleft := r.unitsOf_letGo holds held.units
    rw [Registry.unitsAt_eq found] at hleft
    show (subUnits s.units held.units).toNat = _
    rw [toNat_subUnits, Registry.unitsOf_spendAction]
    omega
  | @switchGroup key group ref source ref' destination total holds _ found found' _ sum =>
    obtain ⟨-, hsum⟩ := addUnits?_eq_some_iff.1 sum
    have hover := r.unitsOf_hold_over holds (subUnits total source.units)
    rw [Registry.unitsAt_eq found, Registry.unitsAt_eq found'] at hover
    show (subUnits total source.units).toNat = _
    rw [toNat_subUnits, Registry.unitsOf_spendAction]
    omega
  | @staffEnroll key ref wanted found fresh =>
    have hfits := hfits key rfl
    rw [Registry.unitsOf_hold fresh, Registry.unitsAt_eq found, UInt16.size] at hfits
    show (addUnits s.units wanted.units).toNat = _
    rw [toNat_addUnits, Registry.unitsOf_hold fresh, Registry.unitsAt_eq found]
    omega
  | @staffDrop course group ref held holds found =>
    have hleft := r.unitsOf_letGo holds held.units
    rw [Registry.unitsAt_eq found] at hleft
    show (subUnits s.units held.units).toNat = _
    rw [toNat_subUnits]
    omega

end CourseRegistration
