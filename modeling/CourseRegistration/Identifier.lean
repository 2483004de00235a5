import CourseRegistration.Ordered.Rank

/-!
# Identifiers

Courses, groups, departments and students are known by numbers of fixed width.  Each kind has a
type of its own, so a course number is never taken for a group number.  A section is one group of
one course; its key names both, and is written `course-group` in every message.
-/

namespace CourseRegistration

/-- The number of a course.  All groups of a course share it. -/
structure CourseId where
  number : Int32
  deriving DecidableEq, Inhabited

/-- The number of a group within its course. -/
structure GroupId where
  number : UInt8
  deriving DecidableEq, Inhabited

/-- The number of a department. -/
structure DepartmentId where
  number : UInt8
  deriving DecidableEq, Inhabited

/-- The number of a student. -/
structure StudentId where
  number : UInt64
  deriving DecidableEq, Inhabited

/-- One group of one course. -/
structure SectionKey where
  course : CourseId
  group : GroupId
  deriving DecidableEq, Inhabited

/-- A student's claim to a place in a section. -/
structure SeatClaim where
  student : StudentId
  key : SectionKey
  deriving DecidableEq, Inhabited

/-! ## Order -/

instance : Ranked CourseId where
  rank c := c.number.toInt
  eq_of_rank_eq {a b} h := by
    cases a
    cases b
    exact congrArg _ (Int32.toInt_inj.1 h)

instance : Ranked GroupId where
  rank g := g.number.toNat
  eq_of_rank_eq {a b} h := by
    cases a
    cases b
    exact congrArg _ (UInt8.toNat_inj.1 (Int.ofNat_inj.1 h))

instance : Ranked DepartmentId where
  rank d := d.number.toNat
  eq_of_rank_eq {a b} h := by
    cases a
    cases b
    exact congrArg _ (UInt8.toNat_inj.1 (Int.ofNat_inj.1 h))

instance : Ranked StudentId where
  rank s := s.number.toNat
  eq_of_rank_eq {a b} h := by
    cases a
    cases b
    exact congrArg _ (UInt64.toNat_inj.1 (Int.ofNat_inj.1 h))

theorem rank_group_bounds (g : GroupId) : 0 ≤ rank g ∧ rank g < 256 := by
  have := g.number.toNat_lt
  simp only [rank]
  omega

theorem rank_course_bounds (c : CourseId) : -2147483648 ≤ rank c ∧ rank c < 2147483648 := by
  have h₁ := Int32.le_toInt c.number
  have h₂ := Int32.toInt_lt c.number
  simp only [rank]
  omega

/-- Sections are ordered by course, and within a course by group. -/
instance : Ranked SectionKey where
  rank k := rank k.course * 256 + rank k.group
  eq_of_rank_eq {a b} h := by
    obtain ⟨ca, ga⟩ := a
    obtain ⟨cb, gb⟩ := b
    have := rank_group_bounds ga
    have := rank_group_bounds gb
    simp only at h
    have hc : rank ca = rank cb := by omega
    have hg : rank ga = rank gb := by omega
    rw [eq_of_rank_eq hc, eq_of_rank_eq hg]

theorem rank_section (k : SectionKey) : rank k = rank k.course * 256 + rank k.group :=
  rfl

theorem rank_section_bounds (k : SectionKey) :
    -549755813888 ≤ rank k ∧ rank k < 549755813888 := by
  have := rank_group_bounds k.group
  have := rank_course_bounds k.course
  rw [rank_section]
  omega

/-- Claims are ordered by student, and for a student by section. -/
instance : Ranked SeatClaim where
  rank c := rank c.student * 1099511627776 + rank c.key
  eq_of_rank_eq {a b} h := by
    obtain ⟨sa, ka⟩ := a
    obtain ⟨sb, kb⟩ := b
    have := rank_section_bounds ka
    have := rank_section_bounds kb
    simp only at h
    have hs : rank sa = rank sb := by omega
    have hk : rank ka = rank kb := by omega
    rw [eq_of_rank_eq hs, eq_of_rank_eq hk]

/-! ## Text -/

/-- The decimal number. -/
def CourseId.text (c : CourseId) : String :=
  toString c.number.toInt

/-- The decimal number. -/
def GroupId.text (g : GroupId) : String :=
  toString g.number.toNat

/-- The decimal number. -/
def DepartmentId.text (d : DepartmentId) : String :=
  toString d.number.toNat

/-- The decimal number. -/
def StudentId.text (s : StudentId) : String :=
  toString s.number.toNat

/-- Course and group with a hyphen between them. -/
def SectionKey.text (k : SectionKey) : String :=
  k.course.text ++ "-" ++ k.group.text

end CourseRegistration
