import CourseRegistration.Proofs.Catalog
import CourseRegistration.Proofs.Decision
import CourseRegistration.Proofs.SeatMoves
import CourseRegistration.Snapshot.Build

/-!
# What a snapshot makes

Each function that a registry is built with is described by one equivalence: it goes through exactly
under a condition that can be read off its arguments, and then its result is a plain expression in
them.  Put together, `build_eq_ok_iff` says that the snapshots from which a registry is built are
those that are `WellFormed`, and that the registry is `Snapshot.registry`.

The claims of places are gone from that statement.  What was claimed after the loop over the
sections are the places on rosters, each student takes out the sections that the student holds, and
nothing is left exactly if the two sides agree.
-/

namespace CourseRegistration

namespace Seats

variable {s : Seats} {x : StudentId} {l : List StudentId}

/-- The seats once everyone listed has got the next place in turn. -/
def seatInOrder (s : Seats) (l : List StudentId) : Seats :=
  { s with
    registered := s.registered.insertAll (l.take (s.capacity.toNat - s.registered.size))
    waitlist := s.waitlist ++ l.drop (s.capacity.toNat - s.registered.size) }

/-- How many places are free. -/
def free (s : Seats) : Nat :=
  (s.capacity.toNat - s.registered.size) + (s.reserve.toNat - s.waitlist.length)

lemma nextPlace_eq_none_iff : s.nextPlace = none ↔ s.free = 0 := by
  unfold nextPlace free
  split_ifs
  · exact iff_of_false nofun (by omega)
  · exact iff_of_false nofun (by omega)
  · exact iff_of_true rfl (by omega)

/-- Whoever is first in the list gets the next place, and then the others are seated. -/
lemma seatInOrder_cons {place : Place} (hx : s.holds x = false)
    (vacant : s.nextPlace = some place) :
    s.seatInOrder (x :: l) = (s.give x place).seatInOrder l ∧
      (s.give x place).free + 1 = s.free := by
  have hnew : x ∉ s.registered := by
    intro h
    rw [Bool.eq_false_iff] at hx
    exact hx (holds_iff.2 (.inl h))
  rcases nextPlace_eq_some_iff.1 vacant with ⟨rfl, hroom⟩ | ⟨rfl, hfull, hwait⟩
  · have hsize : (s.registered.insert x).size = s.registered.size + 1 := OrderedSet.size_insert hnew
    obtain ⟨n, hn⟩ : ∃ n, s.capacity.toNat - s.registered.size = n + 1 :=
      ⟨s.capacity.toNat - s.registered.size - 1, by omega⟩
    have hn' : s.capacity.toNat - (s.registered.size + 1) = n := by omega
    constructor
    · simp only [seatInOrder, give, hsize, hn, hn']
      rfl
    · simp only [free, give, hsize]
      omega
  · have hzero : s.capacity.toNat - s.registered.size = 0 := by omega
    constructor
    · simp [seatInOrder, give, hzero]
    · simp only [free, give, List.length_append, List.length_singleton]
      omega

end Seats

namespace Snapshot

/-! ## Sections -/

/-- Whether the listed students can be seated one after the other. -/
structure Seatable (s : Section) (claims : Claims) (l : List StudentId) : Prop where
  nodup : l.Nodup
  /-- None of them has a place yet. -/
  new : ∀ x ∈ l, s.seats.holds x = false
  /-- Nobody has claimed their places. -/
  unclaimed : ∀ x ∈ l, (⟨x, s.key⟩ : SeatClaim) ∉ claims
  /-- There is a place for each. -/
  room : l.length ≤ s.seats.free

lemma seatable_cons {s : Section} {claims : Claims} {x : StudentId} {l : List StudentId}
    {place : Place} (hx : s.seats.holds x = false) (hclaim : (⟨x, s.key⟩ : SeatClaim) ∉ claims)
    (vacant : s.seats.nextPlace = some place) :
    Seatable s claims (x :: l) ↔
      Seatable (s.withSeats (s.seats.give x place)) (claims.insert ⟨x, s.key⟩) l := by
  have hfree : (s.seats.give x place).free + 1 = s.seats.free :=
    (Seats.seatInOrder_cons (l := l) hx vacant).2
  constructor
  · rintro ⟨hnodup, hnew, hunclaimed, hroom⟩
    obtain ⟨hfirst, hnodup⟩ := List.nodup_cons.1 hnodup
    refine ⟨hnodup, fun y hy => ?_, fun y hy hmem => ?_, ?_⟩
    · rw [Bool.eq_false_iff]
      intro hholds
      rcases Seats.holds_give.1 hholds with rfl | hholds
      · exact hfirst hy
      · rw [hnew y (List.mem_cons_of_mem _ hy)] at hholds
        cases hholds
    · rcases OrderedSet.mem_insert.1 hmem with heq | hmem
      · cases heq
        exact hfirst hy
      · exact hunclaimed y (List.mem_cons_of_mem _ hy) hmem
    · rw [List.length_cons, ← hfree] at hroom
      exact Nat.le_of_succ_le_succ hroom
  · rintro ⟨hnodup, hnew, hunclaimed, hroom⟩
    have hholds : ∀ y ∈ l, y ≠ x ∧ s.seats.holds y = false := by
      intro y hy
      have hfalse := hnew y hy
      rw [Bool.eq_false_iff, ne_eq, Section.withSeats, Seats.holds_give, not_or] at hfalse
      exact ⟨hfalse.1, Bool.eq_false_iff.2 hfalse.2⟩
    refine ⟨List.nodup_cons.2 ⟨fun hmem => (hholds x hmem).1 rfl, hnodup⟩, fun y hy => ?_,
      fun y hy hmem => ?_, ?_⟩
    · rcases List.mem_cons.1 hy with rfl | hy
      · exact hx
      · exact (hholds y hy).2
    · rcases List.mem_cons.1 hy with rfl | hy
      · exact hclaim hmem
      · exact hunclaimed y hy (OrderedSet.mem_insert.2 (.inr hmem))
    · rw [List.length_cons, ← hfree]
      exact Nat.succ_le_succ hroom

/-- **Seating everyone listed** goes through exactly if each can be seated. -/
lemma seatAll_eq_ok_iff {s s' : Section} {claims claims' : Claims} {l : List StudentId} :
    seatAll s claims l = .ok (s', claims') ↔
      Seatable s claims l ∧ s' = s.withSeats (s.seats.seatInOrder l) ∧
        claims' = claims.insertAll (l.map fun x => ⟨x, s.key⟩) := by
  induction l generalizing s claims with
  | nil =>
    have hseatable : Seatable s claims [] :=
      ⟨List.nodup_nil, fun x hx => absurd hx List.not_mem_nil,
        fun x hx => absurd hx List.not_mem_nil, Nat.zero_le _⟩
    have hsame : s.withSeats (s.seats.seatInOrder []) = s := by
      simp [Seats.seatInOrder, Section.withSeats, OrderedSet.insertAll]
    rw [hsame, seatAll, Except.ok.injEq, Prod.mk.injEq]
    constructor
    · rintro ⟨rfl, rfl⟩
      exact ⟨hseatable, rfl, rfl⟩
    · rintro ⟨-, rfl, rfl⟩
      exact ⟨rfl, rfl⟩
  | cons x rest ih =>
    have hrefused : ∀ {why : Defect}, Except.error why ≠ Except.ok (s', claims') := by
      intro why h
      cases h
    unfold seatAll
    by_cases hclaim : (⟨x, s.key⟩ : SeatClaim) ∈ claims
    · rw [if_pos hclaim]
      exact iff_of_false hrefused fun h => h.1.unclaimed x List.mem_cons_self hclaim
    rw [if_neg hclaim]
    unfold Section.seat
    cases hx : s.seats.holds x with
    | true =>
      refine iff_of_false hrefused fun h => ?_
      rw [h.1.new x List.mem_cons_self] at hx
      cases hx
    | false =>
      cases vacant : s.seats.nextPlace with
      | none =>
        refine iff_of_false hrefused fun h => ?_
        have hroom := h.1.room
        rw [Seats.nextPlace_eq_none_iff.1 vacant] at hroom
        cases hroom
      | some place =>
        have hseats : s.seats.seatInOrder (x :: rest) = (s.seats.give x place).seatInOrder rest :=
          (Seats.seatInOrder_cons hx vacant).1
        rw [seatable_cons hx hclaim vacant, hseats, List.map_cons, OrderedSet.insertAll_cons]
        exact ih

/-- The section that a stored one makes, with everyone listed in it. -/
def StoredSection.built (t : StoredSection) : Section :=
  let s := t.vacant (t.weekly.toOption.getD .unscheduled)
  s.withSeats (s.seats.seatInOrder t.students)

/-- What must be true of a stored section by itself. -/
structure StoredSection.Loadable (t : StoredSection) : Prop where
  /-- Its hours are possible. -/
  hours : ∃ hours, t.weekly = .ok hours
  /-- Nobody is listed twice. -/
  nodup : t.students.Nodup
  /-- There is a place for everyone listed. -/
  room : t.students.length ≤ t.capacity.toNat + t.reserve.toNat

/-- The sections and claims with those of one more stored section. -/
def Sections.with (b : Sections) (t : StoredSection) : Sections :=
  ⟨b.byKey.insert t.key t.built, b.claims.insertAll (t.students.map fun x => ⟨x, t.key⟩)⟩

lemma addSection_eq_ok_iff {departments : OrderedMap DepartmentId String} {b b' : Sections}
    {t : StoredSection} :
    addSection departments b t = .ok b' ↔
      (b.byKey.contains t.key = false ∧ departments.contains t.department = true ∧ t.Loadable ∧
        ∀ x ∈ t.students, (⟨x, t.key⟩ : SeatClaim) ∉ b.claims) ∧ b' = b.with t := by
  have hvacant : ∀ hours, (t.vacant hours).seats.free = t.capacity.toNat + t.reserve.toNat :=
    fun _ => rfl
  have hbuilt : ∀ {hours}, t.weekly = .ok hours →
      t.built = (t.vacant hours).withSeats ((t.vacant hours).seats.seatInOrder t.students) := by
    intro hours hhours
    rw [StoredSection.built, hhours]
    rfl
  unfold addSection
  cases hnew : b.byKey.contains t.key with
  | true => exact iff_of_false nofun fun h => Bool.false_ne_true h.1.1.symm
  | false =>
    cases hknown : departments.contains t.department with
    | false => exact iff_of_false nofun fun h => Bool.false_ne_true h.1.2.1
    | true =>
      simp only [Bool.not_true, Bool.false_eq_true, ↓reduceIte, bind_eq_ok, Prod.exists,
        pure_eq_ok, seatAll_eq_ok_iff]
      constructor
      · rintro ⟨hours, hhours, made, claims, ⟨hseatable, rfl, rfl⟩, rfl⟩
        refine ⟨⟨trivial, trivial, ⟨⟨hours, hhours⟩, hseatable.nodup, ?_⟩, hseatable.unclaimed⟩, ?_⟩
        · exact hvacant hours ▸ hseatable.room
        · rw [Sections.with, hbuilt hhours]
          rfl
      · rintro ⟨⟨-, -, ⟨⟨hours, hhours⟩, hnodup, hroom⟩, hunclaimed⟩, rfl⟩
        refine ⟨hours, hhours, _, _, ⟨⟨hnodup, fun x _ => Seats.holds_vacant _ _, hunclaimed,
          hroom⟩, rfl, rfl⟩, ?_⟩
        rw [Sections.with, hbuilt hhours]
        rfl

/-- The places on the rosters of the stored sections are those claimed after them. -/
lemma mem_claims_foldl_with {ts : List StoredSection} {b : Sections} {claim : SeatClaim} :
    claim ∈ (ts.foldl Sections.with b).claims ↔
      claim ∈ b.claims ∨ ∃ t ∈ ts, t.key = claim.key ∧ claim.student ∈ t.students := by
  induction ts generalizing b with
  | nil => simp
  | cons t rest ih =>
    obtain ⟨x, key⟩ := claim
    rw [List.foldl_cons, ih, Sections.with, OrderedSet.mem_insertAll, List.mem_map,
      List.exists_mem_cons_iff]
    simp only [SeatClaim.mk.injEq]
    constructor
    · rintro ((⟨y, hy, rfl, rfl⟩ | hmem) | hrest)
      · exact .inr (.inl ⟨rfl, hy⟩)
      · exact .inl hmem
      · exact .inr (.inr hrest)
    · rintro (hmem | ⟨hkey, hx⟩ | hrest)
      · exact .inl (.inr hmem)
      · exact .inl (.inl ⟨x, hx, rfl, hkey⟩)
      · exact .inr hrest

lemma byKey_foldl_with (ts : List StoredSection) (b : Sections) :
    (ts.foldl Sections.with b).byKey = ts.foldl (fun m t => m.insert t.key t.built) b.byKey :=
  (List.foldl_hom Sections.byKey fun _ _ => rfl).symm

/-- **The sections of a list are all added** exactly if their keys differ and each can be loaded. -/
lemma addSections_eq_ok_iff {departments : OrderedMap DepartmentId String}
    {ts : List StoredSection} {b' : Sections} :
    ts.foldlM (addSection departments) ⟨.empty, .empty⟩ = .ok b' ↔
      ((ts.map (·.key)).Nodup ∧
        ∀ t ∈ ts, departments.contains t.department = true ∧ t.Loadable) ∧
      b' = ts.foldl Sections.with ⟨.empty, .empty⟩ := by
  rw [foldlM_eq_ok_iff addSection_eq_ok_iff]
  refine and_congr_left' ((accepted_iff StoredSection.key (fun b : Sections => b.byKey.contains)
    (fun b t k => OrderedMap.contains_insert) ?_).trans ?_)
  · -- a section claims nothing of another
    intro b t t' hne
    refine and_congr_right' (and_congr_right' (forall₂_congr fun x _ => not_congr ?_))
    rw [Sections.with, OrderedSet.mem_insertAll, List.mem_map]
    refine or_iff_right ?_
    rintro ⟨y, -, heq⟩
    exact hne (congrArg SeatClaim.key heq).symm
  · refine and_congr_right' (forall₂_congr fun t _ => ?_)
    constructor
    · rintro ⟨-, hknown, hloadable, -⟩
      exact ⟨hknown, hloadable⟩
    · rintro ⟨hknown, hloadable⟩
      exact ⟨rfl, hknown, hloadable, fun x _ => List.not_mem_nil⟩

/-! ## Students -/

/-- The units of the section under the key, none if there is no such section. -/
def unitsIn (sections : OrderedMap SectionKey Section) (key : SectionKey) : UInt8 :=
  ((sections.get? key).map (·.units)).getD 0

/-- The holdings with one more held course. -/
def Holdings.with (sections : OrderedMap SectionKey Section) (x : StudentId) (h : Holdings)
    (key : SectionKey) : Holdings :=
  ⟨h.courses.insert key.course key.group, Student.addUnits h.units (unitsIn sections key),
    h.claims.erase ⟨x, key⟩⟩

lemma addHeld_eq_ok_iff {sections : OrderedMap SectionKey Section} {x : StudentId}
    {h h' : Holdings} {key : SectionKey} :
    addHeld sections x h key = .ok h' ↔
      (h.courses.contains key.course = false ∧ sections.contains key = true ∧
        (⟨x, key⟩ : SeatClaim) ∈ h.claims) ∧ h' = h.with sections x key := by
  unfold addHeld OrderedMap.contains Holdings.with unitsIn
  cases sections.get? key with
  | none => exact iff_of_false nofun fun hh => Bool.false_ne_true hh.1.2.1
  | some s =>
    by_cases hbad : ((h.courses.get? key.course).isSome ||
        decide ((⟨x, key⟩ : SeatClaim) ∉ h.claims)) = true
    · simp only [hbad, ↓reduceIte]
      refine iff_of_false nofun fun hh => ?_
      rw [hh.1.1, Bool.false_or, decide_eq_true_eq] at hbad
      exact hbad hh.1.2.2
    · simp only [hbad, Bool.false_eq_true, ↓reduceIte, Except.ok.injEq]
      rw [Bool.or_eq_true, not_or, Bool.not_eq_true, decide_eq_true_eq, Classical.not_not] at hbad
      constructor
      · rintro rfl
        exact ⟨⟨hbad.1, rfl, hbad.2⟩, rfl⟩
      · rintro ⟨-, rfl⟩
        rfl

/-- The courses, units and claims of several held courses. -/
lemma foldl_holdings_with (sections : OrderedMap SectionKey Section) (x : StudentId)
    (keys : List SectionKey) (h : Holdings) :
    keys.foldl (Holdings.with sections x) h =
      ⟨keys.foldl (fun m key => m.insert key.course key.group) h.courses,
        keys.foldl (fun total key => Student.addUnits total (unitsIn sections key)) h.units,
        keys.foldl (fun claims key => claims.erase ⟨x, key⟩) h.claims⟩ := by
  induction keys generalizing h with
  | nil => rfl
  | cons key rest ih => exact ih _

/-- **The courses of a list are all held** exactly if they differ and each is of a section that is
there and that the student has a claim to. -/
lemma addHelds_eq_ok_iff {sections : OrderedMap SectionKey Section} {x : StudentId}
    {claims : Claims} {keys : List SectionKey} {h' : Holdings} :
    keys.foldlM (addHeld sections x) ⟨.empty, 0, claims⟩ = .ok h' ↔
      ((keys.map (·.course)).Nodup ∧
        ∀ key ∈ keys, sections.contains key = true ∧ (⟨x, key⟩ : SeatClaim) ∈ claims) ∧
      h' = keys.foldl (Holdings.with sections x) ⟨.empty, 0, claims⟩ := by
  rw [foldlM_eq_ok_iff addHeld_eq_ok_iff]
  refine and_congr_left' ((accepted_iff SectionKey.course (fun h : Holdings => h.courses.contains)
    (fun h key k => OrderedMap.contains_insert) ?_).trans ?_)
  · -- only the claim to the same section is taken out
    intro h key key' hne
    rw [Holdings.with, OrderedSet.mem_erase]
    refine and_congr_right' (and_iff_right ?_)
    intro heq
    exact hne (congrArg (fun claim => claim.key.course) heq)
  · exact and_congr_right' (forall₂_congr fun key _ => and_iff_right rfl)

/-- The student that a stored one makes. -/
def StoredStudent.built (x : StoredStudent) (sections : OrderedMap SectionKey Section) :
    Student where
  id := x.id
  gender := x.gender
  windowStart := x.windowStart
  maxUnits := x.maxUnits
  units := x.courses.foldl (fun total key => Student.addUnits total (unitsIn sections key)) 0
  actions := x.actions
  courses := x.courses.foldl (fun m key => m.insert key.course key.group) .empty

/-- The students and claims with one more stored student. -/
def Students.with (sections : OrderedMap SectionKey Section) (b : Students) (x : StoredStudent) :
    Students :=
  ⟨b.byId.insert x.id (x.built sections),
    x.courses.foldl (fun claims key => claims.erase ⟨x.id, key⟩) b.claims⟩

lemma mem_foldl_erase {x : StudentId} {keys : List SectionKey} {claims : Claims}
    {claim : SeatClaim} :
    claim ∈ keys.foldl (fun claims key => claims.erase ⟨x, key⟩) claims ↔
      claim ∈ claims ∧ ¬ (x = claim.student ∧ claim.key ∈ keys) := by
  induction keys generalizing claims with
  | nil => simp
  | cons key rest ih =>
    obtain ⟨y, key'⟩ := claim
    rw [List.foldl_cons, ih, OrderedSet.mem_erase, List.mem_cons]
    simp only [ne_eq, SeatClaim.mk.injEq, eq_comm (a := x)]
    tauto

lemma addStudent_eq_ok_iff {sections : OrderedMap SectionKey Section} {b b' : Students}
    {x : StoredStudent} :
    addStudent sections b x = .ok b' ↔
      (b.byId.contains x.id = false ∧ (x.courses.map (·.course)).Nodup ∧
        ∀ key ∈ x.courses, sections.contains key = true ∧ (⟨x.id, key⟩ : SeatClaim) ∈ b.claims) ∧
      b' = b.with sections x := by
  unfold addStudent
  cases hnew : b.byId.contains x.id with
  | true => exact iff_of_false nofun fun h => Bool.false_ne_true h.1.1.symm
  | false =>
    simp only [Bool.false_eq_true, ↓reduceIte, bind_eq_ok, pure_eq_ok, addHelds_eq_ok_iff]
    constructor
    · rintro ⟨held, ⟨hcourses, rfl⟩, rfl⟩
      refine ⟨⟨trivial, hcourses⟩, ?_⟩
      rw [foldl_holdings_with]
      rfl
    · rintro ⟨⟨-, hcourses⟩, rfl⟩
      refine ⟨_, ⟨hcourses, rfl⟩, ?_⟩
      rw [foldl_holdings_with]
      rfl

lemma byId_foldl_with (sections : OrderedMap SectionKey Section) (xs : List StoredStudent)
    (b : Students) :
    (xs.foldl (Students.with sections) b).byId =
      xs.foldl (fun m x => m.insert x.id (x.built sections)) b.byId :=
  (List.foldl_hom Students.byId fun _ _ => rfl).symm

/-- The claims that are left are those that no student has settled. -/
lemma mem_claims_foldl_students {sections : OrderedMap SectionKey Section}
    {xs : List StoredStudent} {b : Students} {claim : SeatClaim} :
    claim ∈ (xs.foldl (Students.with sections) b).claims ↔
      claim ∈ b.claims ∧ ∀ x ∈ xs, ¬ (x.id = claim.student ∧ claim.key ∈ x.courses) := by
  induction xs generalizing b with
  | nil => simp
  | cons x rest ih =>
    rw [List.foldl_cons, ih, List.forall_mem_cons, Students.with, mem_foldl_erase, and_assoc]

/-- **The students of a list are all added** exactly if their numbers differ, none holds two groups
of a course, and each has a claim to what the student holds. -/
lemma addStudents_eq_ok_iff {sections : OrderedMap SectionKey Section} {claims : Claims}
    {xs : List StoredStudent} {b' : Students} :
    xs.foldlM (addStudent sections) ⟨.empty, claims⟩ = .ok b' ↔
      ((xs.map (·.id)).Nodup ∧ ∀ x ∈ xs, (x.courses.map (·.course)).Nodup ∧
        ∀ key ∈ x.courses, sections.contains key = true ∧ (⟨x.id, key⟩ : SeatClaim) ∈ claims) ∧
      b' = xs.foldl (Students.with sections) ⟨.empty, claims⟩ := by
  rw [foldlM_eq_ok_iff addStudent_eq_ok_iff]
  refine and_congr_left' ((accepted_iff StoredStudent.id (fun b : Students => b.byId.contains)
    (fun b x k => OrderedMap.contains_insert) ?_).trans ?_)
  · -- a student settles no claim of another
    intro b x x' hne
    refine and_congr_right' (forall₂_congr fun key _ => and_congr_right' ?_)
    rw [Students.with, mem_foldl_erase]
    exact and_iff_left fun h => hne h.1.symm
  · exact and_congr_right' (forall₂_congr fun x _ => and_iff_right rfl)

end Snapshot

/-! ## Registries -/

namespace Snapshot

variable {s : Snapshot} {r : Registry}

/-- The departments of a snapshot. -/
def departmentMap (s : Snapshot) : OrderedMap DepartmentId String :=
  s.departments.foldl (fun m d => m.insert d.id d.name) .empty

/-- The sections that a snapshot makes, by key. -/
def sectionMap (s : Snapshot) : OrderedMap SectionKey Section :=
  s.sections.foldl (fun m t => m.insert t.key t.built) .empty

/-- The students that a snapshot makes. -/
def studentMap (s : Snapshot) : OrderedMap StudentId Student :=
  s.students.foldl (fun m x => m.insert x.id (x.built s.sectionMap)) .empty

/-- The registry that a snapshot makes. -/
def registry (s : Snapshot) : Registry :=
  ⟨s.departmentMap, .ofSections s.sectionMap.values, s.studentMap⟩

/-- A snapshot from which a registry can be built. -/
structure WellFormed (s : Snapshot) : Prop where
  /-- No department is listed twice. -/
  departments_nodup : (s.departments.map (·.id)).Nodup
  /-- No section is listed twice. -/
  sections_nodup : (s.sections.map (·.key)).Nodup
  /-- The department of a section is listed. -/
  department_listed : ∀ t ∈ s.sections, ∃ d ∈ s.departments, d.id = t.department
  /-- Every section can be loaded by itself. -/
  loadable : ∀ t ∈ s.sections, t.Loadable
  /-- No student is listed twice. -/
  students_nodup : (s.students.map (·.id)).Nodup
  /-- No student holds two groups of a course. -/
  courses_nodup : ∀ x ∈ s.students, (x.courses.map (·.course)).Nodup
  /-- A student who holds a section is on its roster. -/
  on_roster : ∀ x ∈ s.students, ∀ key ∈ x.courses,
    ∃ t ∈ s.sections, t.key = key ∧ x.id ∈ t.students
  /-- A student on the roster of a section holds it. -/
  held : ∀ t ∈ s.sections, ∀ id ∈ t.students, ∃ x ∈ s.students, x.id = id ∧ t.key ∈ x.courses

lemma addDepartments_eq_ok_iff {ds : List StoredDepartment}
    {m' : OrderedMap DepartmentId String} :
    ds.foldlM addDepartment .empty = .ok m' ↔
      (ds.map (·.id)).Nodup ∧ m' = ds.foldl (fun m d => m.insert d.id d.name) .empty := by
  have step : ∀ {m : OrderedMap DepartmentId String} {d m'}, addDepartment m d = .ok m' ↔
      (m.contains d.id = false ∧ True) ∧ m' = m.insert d.id d.name := by
    intro m d m'
    unfold addDepartment
    cases m.contains d.id with
    | true => simp
    | false => simp [eq_comm]
  rw [foldlM_eq_ok_iff step]
  refine and_congr_left' ((accepted_iff StoredDepartment.id OrderedMap.contains
    (fun m d k => OrderedMap.contains_insert) fun _ _ _ _ => Iff.rfl).trans ?_)
  exact and_iff_left fun d _ => ⟨rfl, trivial⟩

lemma sectionMap_eq (s : Snapshot) :
    (s.sections.foldl Sections.with ⟨.empty, .empty⟩).byKey = s.sectionMap :=
  byKey_foldl_with s.sections _

/-- The places on the rosters of a snapshot. -/
lemma mem_claims_sections {claim : SeatClaim} :
    claim ∈ (s.sections.foldl Sections.with ⟨.empty, .empty⟩).claims ↔
      ∃ t ∈ s.sections, t.key = claim.key ∧ claim.student ∈ t.students :=
  mem_claims_foldl_with.trans (or_iff_right List.not_mem_nil)

/-- The claims of a snapshot that nobody settles. -/
lemma claims_settled_iff :
    (s.students.foldl (Students.with s.sectionMap)
        ⟨.empty, (s.sections.foldl Sections.with ⟨.empty, .empty⟩).claims⟩).claims.items = [] ↔
      ∀ t ∈ s.sections, ∀ id ∈ t.students, ∃ x ∈ s.students, x.id = id ∧ t.key ∈ x.courses := by
  rw [List.eq_nil_iff_forall_not_mem]
  constructor
  · intro hnone t ht id hid
    have hclaim := hnone ⟨id, t.key⟩
    rw [OrderedSet.mem_items, mem_claims_foldl_students, mem_claims_sections] at hclaim
    by_contra hunsettled
    refine hclaim ⟨⟨t, ht, rfl, hid⟩, fun x hx h => hunsettled ?_⟩
    exact ⟨x, hx, h⟩
  · rintro hsettled ⟨id, key⟩ hclaim
    rw [OrderedSet.mem_items, mem_claims_foldl_students, mem_claims_sections] at hclaim
    obtain ⟨⟨t, ht, rfl, hid⟩, hleft⟩ := hclaim
    obtain ⟨x, hx, hcourse⟩ := hsettled t ht id hid
    exact hleft x hx hcourse

/-- **A registry is built exactly from the well-formed snapshots**, and it is the one that the
snapshot makes. -/
theorem build_eq_ok_iff : s.build = .ok r ↔ s.WellFormed ∧ r = s.registry := by
  simp only [build, bind_eq_ok, addDepartments_eq_ok_iff, addSections_eq_ok_iff,
    addStudents_eq_ok_iff]
  constructor
  · rintro ⟨_, ⟨hdepartments, rfl⟩, _, ⟨⟨hkeys, hsections⟩, rfl⟩, _, ⟨⟨hids, hstudents⟩, rfl⟩, h⟩
    rw [sectionMap_eq] at h hstudents
    split at h
    · rename_i hnone
      cases h
      refine ⟨⟨hdepartments, hkeys, fun t ht => ?_, fun t ht => (hsections t ht).2, hids,
        fun x hx => (hstudents x hx).1, fun x hx key hkey => ?_, claims_settled_iff.1 hnone⟩, ?_⟩
      · exact (OrderedMap.contains_foldl_insert hdepartments).1 (hsections t ht).1
      · exact mem_claims_sections.1 ((hstudents x hx).2 key hkey).2
      · rw [byId_foldl_with]
        rfl
    · cases h
  · rintro ⟨hs, rfl⟩
    refine ⟨s.departmentMap, ⟨hs.departments_nodup, rfl⟩, _, ⟨⟨hs.sections_nodup, ?_⟩, rfl⟩, _,
      ⟨⟨hs.students_nodup, ?_⟩, rfl⟩, ?_⟩
    · intro t ht
      exact ⟨(OrderedMap.contains_foldl_insert hs.departments_nodup).2 (hs.department_listed t ht),
        hs.loadable t ht⟩
    · intro x hx
      refine ⟨hs.courses_nodup x hx, fun key hkey => ?_⟩
      obtain ⟨t, ht, rfl, hid⟩ := hs.on_roster x hx key hkey
      refine ⟨?_, mem_claims_sections.2 ⟨t, ht, rfl, hid⟩⟩
      rw [sectionMap_eq]
      exact (OrderedMap.contains_foldl_insert hs.sections_nodup).2 ⟨t, ht, rfl⟩
    · rw [sectionMap_eq, claims_settled_iff.2 hs.held, byId_foldl_with]
      rfl

/-! ## What is found in a loaded registry -/

namespace WellFormed

variable {key : SectionKey} {made : Section} {id : StudentId} {student : Student}

/-- Every section of a loaded registry is made from a stored one. -/
lemma sectionMap_eq_some (hs : s.WellFormed) (h : s.sectionMap.get? key = some made) :
    ∃ t ∈ s.sections, t.key = key ∧ t.built = made :=
  OrderedMap.get?_foldl_insert_eq_some hs.sections_nodup h

/-- Every student of a loaded registry is made from a stored one. -/
lemma studentMap_eq_some (hs : s.WellFormed) (h : s.studentMap.get? id = some student) :
    ∃ x ∈ s.students, x.id = id ∧ x.built s.sectionMap = student :=
  OrderedMap.get?_foldl_insert_eq_some hs.students_nodup h

lemma keyed (hs : s.WellFormed) (h : s.sectionMap.get? key = some made) : made.key = key := by
  obtain ⟨t, -, rfl, rfl⟩ := hs.sectionMap_eq_some h
  rfl

lemma lookup_registry (hs : s.WellFormed) (key : SectionKey) :
    (s.registry.catalog.lookup key).map (·.2) = s.sectionMap.get? key :=
  Catalog.lookup_ofSections_values hs.keyed key

lemma canonical_registry (hs : s.WellFormed) : s.registry.catalog.Canonical :=
  Catalog.canonical_ofSections_values hs.keyed

/-- Every section that is found in a loaded registry is made from a stored one. -/
lemma lookup_eq_some (hs : s.WellFormed) {ref : Catalog.Ref}
    (found : s.registry.catalog.lookup key = some (ref, made)) :
    ∃ t ∈ s.sections, t.key = key ∧ t.built = made := by
  apply hs.sectionMap_eq_some
  rw [← hs.lookup_registry, found]
  rfl

end WellFormed

end Snapshot

end CourseRegistration
