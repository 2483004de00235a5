import CourseRegistration.Proofs.Rotation.Basic
import CourseRegistration.Proofs.Switching

/-!
# What holds throughout a rotation

In every state that attempts lead to, each student is where the number of moves says, with just as
many actions left, and each group has at most one student in its seat and at most one who waits, who
waits only while the seat is taken (`Invariant`).  Whoever is in a group need not be kept track of:
the registry is consistent, so the rosters follow from the students.

A move is refused exactly if the group ahead has no place left (`Invariant.attempt_full`), and else
leads to the next such state (`Invariant.attempt_room`).
-/

namespace CourseRegistration

open Journal

/-! ## Sections with one seat -/

namespace Seats

/-- One seat and one place to wait, which is taken only while the seat is. -/
structure Narrow (s : Seats) : Prop where
  capacity : s.capacity = 1
  reserve : s.reserve = 1
  registered_le : s.registered.size ≤ 1
  waitlist_le : s.waitlist.length ≤ 1
  /-- Nobody waits for a free seat. -/
  taken : s.waitlist ≠ [] → s.registered.size = 1

variable {s : Seats} {x : StudentId} {place : Place}

namespace Narrow

lemma nextPlace_eq (hs : s.Narrow) : s.nextPlace =
    if s.registered.size < 1 then some .registered
    else if s.waitlist.length < 1 then some .waitlisted
    else none := by
  rw [nextPlace, hs.capacity, hs.reserve]
  rfl

lemma give (hs : s.Narrow) (hx : s.holds x = false) (room : s.nextPlace = some place) :
    (s.give x place).Narrow := by
  have hx' : x ∉ s.registered := fun h => by
    rw [holds_iff.2 (.inl h)] at hx
    cases hx
  have htaken := hs.taken
  rw [hs.nextPlace_eq] at room
  split_ifs at room with hseat hwait
  · cases room
    have hsize := OrderedSet.size_insert hx'
    refine ⟨hs.capacity, hs.reserve, ?_, hs.waitlist_le, fun _ => ?_⟩
    · show (s.registered.insert x).size ≤ 1
      omega
    · show (s.registered.insert x).size = 1
      omega
  · cases room
    have hsize := hs.registered_le
    refine ⟨hs.capacity, hs.reserve, hsize, ?_, fun _ => ?_⟩
    · show (s.waitlist ++ [x]).length ≤ 1
      rw [List.length_append, List.length_singleton]
      omega
    · show s.registered.size = 1
      omega

lemma vacate (hs : s.Narrow) (ho : s.Orderly) (x : StudentId) : (s.vacate x).Narrow := by
  have hsize := hs.registered_le
  rcases vacate_cases s x with ⟨hx, hw, he⟩ | ⟨next, rest, hx, hw, he⟩ | ⟨-, he⟩
  · have herase := OrderedSet.size_erase hx
    rw [he]
    refine ⟨hs.capacity, hs.reserve, ?_, hs.waitlist_le, fun h => absurd hw h⟩
    show (s.registered.erase x).size ≤ 1
    omega
  · -- the one who waited has the seat now
    have herase := OrderedSet.size_erase hx
    have hnext : next ∉ s.registered.erase x := by
      intro h
      refine ho.separate (OrderedSet.mem_erase.1 h).2 ?_
      rw [hw]
      exact List.mem_cons_self
    have hinsert := OrderedSet.size_insert hnext
    have hlength := hs.waitlist_le
    rw [hw, List.length_cons] at hlength
    have hrest : rest = [] := List.eq_nil_of_length_eq_zero (by omega)
    rw [he, hrest]
    refine ⟨hs.capacity, hs.reserve, ?_, Nat.zero_le _, fun h => absurd rfl h⟩
    show ((s.registered.erase x).insert next).size ≤ 1
    omega
  · have hlength := hs.waitlist_le
    have herase := s.waitlist.length_erase_le (a := x)
    rw [he]
    refine ⟨hs.capacity, hs.reserve, hsize, herase.trans hlength, fun h => hs.taken ?_⟩
    rintro hw
    rw [hw] at h
    exact h rfl

/-- A section without a free place has two students. -/
lemma exists_two (hs : s.Narrow) (ho : s.Orderly) (full : s.nextPlace = none) :
    ∃ x y, x ≠ y ∧ s.holds x = true ∧ s.holds y = true := by
  rw [hs.nextPlace_eq] at full
  split_ifs at full with hseat hwait
  obtain ⟨x, hx⟩ : ∃ x, x ∈ s.registered.items :=
    List.exists_mem_of_length_pos (Nat.le_of_not_lt hseat)
  obtain ⟨y, hy⟩ : ∃ y, y ∈ s.waitlist := List.exists_mem_of_length_pos (by omega)
  rw [OrderedSet.mem_items] at hx
  refine ⟨x, y, ?_, holds_iff.2 (.inl hx), holds_iff.2 (.inr hy)⟩
  rintro rfl
  exact ho.separate hx hy

/-- A section that one student alone has a place in has that student registered. -/
lemma of_only (hs : s.Narrow) (ho : s.Orderly) (hx : s.holds x = true)
    (only : ∀ y, s.holds y = true → y = x) : s.registered.size = 1 ∧ s.waitlist = [] := by
  have hempty : s.waitlist = [] := by
    by_contra hne
    obtain ⟨y, hy⟩ := List.exists_mem_of_ne_nil _ hne
    obtain ⟨z, hz⟩ : ∃ z, z ∈ s.registered.items :=
      List.exists_mem_of_length_pos (Nat.lt_of_lt_of_eq Nat.one_pos (hs.taken hne).symm)
    rw [OrderedSet.mem_items] at hz
    have hzx := only z (holds_iff.2 (.inl hz))
    have hyx := only y (holds_iff.2 (.inr hy))
    exact ho.separate hz (by rwa [hzx, ← hyx])
  refine ⟨Nat.le_antisymm hs.registered_le ?_, hempty⟩
  rcases holds_iff.1 hx with h | h
  · exact List.length_pos_of_mem h
  · rw [hempty] at h
    cases h

end Narrow

end Seats

namespace Rotation

variable {rot : Rotation} {r : Registry} {setting : rot.Setting} {wins : Nat → Nat} {g i : Nat}
  {ref ref' : Catalog.Ref} {s source destination : Section} {place : Place} {id : StudentId}
  {key : SectionKey}

/-! ## The start -/

lemma eq_student_iff (hi : i < rot.size) : id = student i ↔ id.number.toNat = i := by
  constructor
  · rintro rfl
    exact toNat_student hi
  · rintro rfl
    exact (student_toNat id).symm

lemma key_eq_iff (hg : g < rot.size) :
    rot.key g = key ↔ key.course = rot.course ∧ key.group.number.toNat = g := by
  obtain ⟨course, group'⟩ := key
  rw [Rotation.key, SectionKey.mk.injEq]
  constructor
  · rintro ⟨rfl, rfl⟩
    exact ⟨rfl, toNat_group hg⟩
  · rintro ⟨rfl, rfl⟩
    exact ⟨rfl, group_toNat group'⟩

lemma get?_students_start : rot.registry.students.get? id =
    if id.number.toNat < rot.size then some (rot.member id.number.toNat 0) else none := by
  have hrange : ∀ n ≤ rot.size, ((List.range n).foldl
      (fun m i => m.insert (student i) (rot.member i 0)) (OrderedMap.empty)).get? id =
      if id.number.toNat < n then some (rot.member id.number.toNat 0) else none := by
    intro n hn
    induction n with
    | zero => rfl
    | succ n ih =>
      rw [List.range_succ, List.foldl_append, List.foldl_cons, List.foldl_nil,
        OrderedMap.get?_insert, ih (Nat.le_of_succ_le hn)]
      by_cases hid : id = student n
      · have hn' := (eq_student_iff hn).1 hid
        rw [if_pos hid, hn', if_pos (Nat.lt_succ_self n)]
      · have hn' : id.number.toNat ≠ n := fun h => hid ((eq_student_iff hn).2 h)
        rw [if_neg hid]
        by_cases hlt : id.number.toNat < n
        · rw [if_pos hlt, if_pos (Nat.lt_succ_of_lt hlt)]
        · rw [if_neg hlt, if_neg (by omega)]
  exact hrange rot.size (Nat.le_refl _)

lemma lookup_start : (rot.registry.catalog.lookup key).map (·.2) =
    if key.course = rot.course ∧ key.group.number.toNat < rot.size then
      some (rot.groupAtStart key.group.number.toNat)
    else none := by
  have hrange : ∀ n ≤ rot.size, ((List.range n).map rot.groupAtStart).find? (fun s => s.key = key) =
      if key.course = rot.course ∧ key.group.number.toNat < n then
        some (rot.groupAtStart key.group.number.toNat)
      else none := by
    intro n hn
    induction n with
    | zero => simp
    | succ n ih =>
      have hlast : (rot.groupAtStart n).key = key ↔
          key.course = rot.course ∧ key.group.number.toNat = n := key_eq_iff hn
      rw [List.range_succ, List.map_append, List.find?_append, ih (Nat.le_of_succ_le hn),
        List.map_singleton, List.find?_singleton]
      by_cases hcourse : key.course = rot.course
      · rcases Nat.lt_trichotomy key.group.number.toNat n with hlt | heq | hgt
        · simp [hcourse, hlt, Nat.lt_succ_of_lt hlt]
        · simp [hcourse, hlast, heq]
        · have hne : key.group.number.toNat ≠ n := Nat.ne_of_gt hgt
          have hnot : ¬ key.group.number.toNat < n := by omega
          have hnot_succ : ¬ key.group.number.toNat < n + 1 := by omega
          simp [hcourse, hlast, hne, hnot, hnot_succ]
      · simp [hcourse, hlast]
  exact (Catalog.lookup_ofSections _ key).trans (hrange rot.size (Nat.le_refl _))

lemma seats_start : rot.registry.ledger.seats key =
    if key.course = rot.course ∧ key.group.number.toNat < rot.size then
      some ((Seats.vacant 1 1).give (student key.group.number.toNat) .registered)
    else none := by
  have hseats : rot.registry.ledger.seats key =
      ((rot.registry.catalog.lookup key).map (·.2)).map (·.seats) := by
    rw [Option.map_map]
    rfl
  rw [hseats, lookup_start]
  split_ifs <;> rfl

lemma held_start {course : CourseId} : rot.registry.ledger.held id course =
    if id.number.toNat < rot.size ∧ course = rot.course then some (group id.number.toNat)
    else none := by
  show (rot.registry.students.get? id).bind _ = _
  rw [get?_students_start]
  by_cases hid : id.number.toNat < rot.size
  · rw [if_pos hid, Option.bind_some, member, OrderedMap.get?_insert, place_zero hid]
    simp [hid]
  · rw [if_neg hid, if_neg fun h => hid h.1, Option.bind_none]

lemma consistent_start (rot : Rotation) : rot.registry.Consistent := by
  refine ⟨⟨Catalog.sound_ofSections ?_, fun {id student} h => ?_⟩,
    fun {key s} h => ?_, fun id key => ?_⟩
  · rw [List.map_map]
    refine List.nodup_range.map_on fun g hg h hh he => ?_
    rw [List.mem_range] at hg hh
    have hgroups : group g = group h := congrArg SectionKey.group he
    exact (group_inj hg hh).1 hgroups
  · rw [get?_students_start] at h
    split_ifs at h
    cases h
    exact student_toNat id
  · rw [seats_start] at h
    split_ifs at h
    cases h
    exact (Seats.orderly_vacant 1 1).give (Seats.holds_vacant 1 1) .registered
  · -- either way, the student and the group have one number and the course is this one
    have hplace : rot.registry.ledger.HasPlace id key ↔
        key.course = rot.course ∧ key.group.number.toNat < rot.size ∧
          id.number.toNat = key.group.number.toNat := by
      rw [Ledger.HasPlace, seats_start]
      split_ifs with h
      · simp [h, Seats.holds_give, eq_student_iff h.2]
      · simp only [false_and, exists_false, false_iff]
        exact fun h' => h ⟨h'.1, h'.2.1⟩
    rw [hplace, held_start]
    split_ifs with h
    · rw [Option.some.injEq]
      constructor
      · rintro ⟨-, -, he⟩
        rw [he, group_toNat]
      · intro he
        have hnumber : id.number.toNat = key.group.number.toNat := by rw [← he, toNat_group h.1]
        exact ⟨h.2, hnumber ▸ h.1, hnumber⟩
    · simp only [iff_false]
      exact fun h' => h ⟨h'.2.2 ▸ h'.2.1, h'.1⟩

/-! ## The invariant -/

/-- A section is a group of the ring as far as moves are concerned. -/
structure IsGroup (rot : Rotation) (s : Section) : Prop where
  units : s.units = rot.units
  lock : s.lock = .unlocked
  narrow : s.seats.Narrow

/-- What holds in every state that attempts lead to. -/
structure Invariant (rot : Rotation) (r : Registry) (wins : Nat → Nat) : Prop where
  consistent : r.Consistent
  bounded : ∀ i < rot.size, wins i ≤ rot.rounds
  /-- There are the students of the ring and no others, where their moves have taken them. -/
  members : ∀ id, r.students.get? id =
    if id.number.toNat < rot.size then some (rot.member id.number.toNat (wins id.number.toNat))
    else none
  groups : ∀ g < rot.size, ∃ ref s, r.catalog.lookup (rot.key g) = some (ref, s) ∧
    rot.IsGroup s

/-- Nobody can be given a place in the group. -/
def Full (rot : Rotation) (r : Registry) (g : Nat) : Prop :=
  ∃ ref s, r.catalog.lookup (rot.key g) = some (ref, s) ∧ s.seats.nextPlace = none

lemma full_iff (found : r.catalog.lookup (rot.key g) = some (ref, s)) :
    rot.Full r g ↔ s.seats.nextPlace = none := by
  simp [Full, found]

lemma invariant_start (rot : Rotation) : rot.Invariant rot.registry fun _ => 0 := by
  refine ⟨rot.consistent_start, fun _ _ => Nat.zero_le _, fun id => get?_students_start, ?_⟩
  intro g hg
  have hlookup : (rot.registry.catalog.lookup (rot.key g)).map (·.2) =
      some (rot.groupAtStart g) := by
    have hnumber : (rot.key g).group.number.toNat = g := toNat_group hg
    rw [lookup_start, hnumber, if_pos ⟨rfl, hg⟩]
  obtain ⟨⟨ref, s⟩, hfound, rfl⟩ := Option.map_eq_some_iff.1 hlookup
  refine ⟨ref, _, hfound, rfl, rfl, ?_⟩
  exact Seats.Narrow.give ⟨rfl, rfl, Nat.zero_le _, Nat.zero_le _, fun h => absurd rfl h⟩
    (Seats.holds_vacant 1 1) rfl

namespace Invariant

variable (h : rot.Invariant r wins)
include h

lemma get?_student (hi : i < rot.size) :
    r.students.get? (student i) = some (rot.member i (wins i)) := by
  rw [h.members, toNat_student hi, if_pos hi]

lemma current_eq (hi : i < rot.size) : rot.current r i = some (group (rot.place i (wins i))) := by
  rw [current, h.get?_student hi]
  exact OrderedMap.get?_insert_self _ _ _

/-- An attempt asks for the group where the next move leads. -/
lemma attempt_eq (setting : rot.Setting) (hi : i < rot.size) : rot.attempt r setting i =
    some (Office.handle ⟨r, setting.now, setting.outbox⟩ setting.cancelled
      (.switchGroup (student i) (rot.key (rot.place i (wins i + 1))))) := by
  rw [attempt, h.current_eq hi, Rotation.key, ← next_place]
  rfl

/-- The roster of a group has those whom their moves have taken there. -/
lemma holds_iff (hg : g < rot.size) (found : r.catalog.lookup (rot.key g) = some (ref, s)) :
    s.seats.holds id = true ↔
      id.number.toNat < rot.size ∧ rot.place id.number.toNat (wins id.number.toNat) = g := by
  have hplace : r.ledger.HasPlace id (rot.key g) ↔ s.seats.holds id = true :=
    Ledger.hasPlace_of_seats (Registry.seats_ledger found)
  rw [← hplace, h.consistent.agrees.hasPlace_iff]
  show (r.students.get? id).bind _ = _ ↔ _
  rw [h.members]
  split_ifs with hid
  · show (OrderedMap.empty.insert rot.course _).get? rot.course = some (group g) ↔ _
    rw [OrderedMap.get?_insert_self, Option.some.injEq, group_inj place_lt hg]
    exact (and_iff_right hid).symm
  · exact iff_of_false nofun fun h' => hid h'.1

lemma orderly (found : r.catalog.lookup key = some (ref, s)) : s.seats.Orderly :=
  h.consistent.agrees.orderly (Registry.seats_ledger found)

/-! ## Moves -/

/-- Every rule allows the next move. -/
lemma mayMove (setting : rot.Setting) (hi : i < rot.size) (unfinished : wins i < rot.rounds)
    (found : r.catalog.lookup (rot.key (rot.place i (wins i))) = some (ref, source))
    (hsource : rot.IsGroup source)
    (found' : r.catalog.lookup (rot.key (rot.place i (wins i + 1))) =
      some (ref', destination))
    (hdestination : rot.IsGroup destination) :
    r.MayMove setting.now (student i) (rot.key (rot.place i (wins i + 1)))
      (rot.member i (wins i)) (group (rot.place i (wins i)))
      (rot.units.toUInt16 + rot.units.toUInt16) ref source ref' destination where
  known := h.get?_student hi
  opened := setting.opened i hi
  able := actions_ne unfinished
  holds := OrderedMap.get?_insert_self _ _ _
  other := by
    rw [Rotation.key, ne_eq, group_inj place_lt place_lt]
    exact place_succ_ne.symm
  found := found
  found' := found'
  admitted := by
    rw [hdestination.lock]
    rfl
  sum := by
    have hunits : rot.units.toUInt16.toNat = rot.units.toNat := UInt8.toNat_toUInt16 _
    have hbound : rot.units.toNat < 256 := rot.units.toNat_lt
    rw [hdestination.units, Student.addUnits?, member, hunits, if_pos]
    show rot.units.toNat + rot.units.toNat < 65536
    omega
  within := by
    rw [hdestination.units, hsource.units]
    exact UInt8.le_refl _
  clear := by
    have hheld : (rot.member i (wins i)).held = [rot.key (rot.place i (wins i))] := rfl
    rw [hheld, List.filter_singleton]
    simp [Rotation.key, Registry.checkClashes]
  seated := by
    rw [h.holds_iff place_lt found, toNat_student hi]
    exact ⟨hi, rfl⟩

/-- The sections of a move, which every rule allows. -/
lemma exists_mayMove (setting : rot.Setting) (hi : i < rot.size)
    (unfinished : wins i < rot.rounds) :
    ∃ ref source ref' destination, rot.IsGroup source ∧ rot.IsGroup destination ∧
      r.MayMove setting.now (student i) (rot.key (rot.place i (wins i + 1)))
        (rot.member i (wins i)) (group (rot.place i (wins i)))
        (rot.units.toUInt16 + rot.units.toUInt16) ref source ref' destination := by
  obtain ⟨ref, source, found, hsource⟩ := h.groups _ (place_lt (i := i) (w := wins i))
  obtain ⟨ref', destination, found', hdestination⟩ :=
    h.groups _ (place_lt (i := i) (w := wins i + 1))
  exact ⟨ref, source, ref', destination, hsource, hdestination,
    h.mayMove setting hi unfinished found hsource found' hdestination⟩

/-- A student ahead of whom there is no place is refused, and nothing changes. -/
theorem attempt_full (setting : rot.Setting) (hi : i < rot.size) (unfinished : wins i < rot.rounds)
    (full : rot.Full r (rot.place i (wins i + 1))) :
    ∃ report, rot.attempt r setting i = some (report, ⟨r, setting.now, setting.outbox⟩) ∧
      report.outcome = .failed .noPlaceLeft := by
  obtain ⟨ref, source, ref', destination, -, -, hmove⟩ := h.exists_mayMove setting hi unfinished
  have hnone := (full_iff hmove.found').1 full
  obtain ⟨houtcome, hoffice⟩ := Registry.MayMove.handle_full
    (o := ⟨r, setting.now, setting.outbox⟩) hmove h.consistent.sound setting.cancelled hnone
  refine ⟨_, (h.attempt_eq setting hi).trans ?_, houtcome⟩
  exact congrArg some (Prod.ext rfl hoffice)

/-- The invariant holds again once a student has moved. -/
lemma moved (hi : i < rot.size) (unfinished : wins i < rot.rounds)
    (hsource : rot.IsGroup source) (hdestination : rot.IsGroup destination)
    (hmove : r.MayMove setting.now (student i) (rot.key (rot.place i (wins i + 1)))
      (rot.member i (wins i)) (group (rot.place i (wins i)))
      (rot.units.toUInt16 + rot.units.toUInt16) ref source ref' destination)
    (hplace : destination.seats.nextPlace = some place)
    (hconsistent : (r.moved ref source ref' destination place
      (rot.member i (wins i + 1))).Consistent) :
    rot.Invariant (r.moved ref source ref' destination place (rot.member i (wins i + 1)))
      (Function.update wins i (wins i + 1)) := by
  refine ⟨hconsistent, fun j hj => ?_, fun id => ?_, fun g hg => ?_⟩
  · by_cases hji : j = i
    · rw [hji, Function.update_self]
      exact unfinished
    · rw [Function.update_of_ne hji]
      exact h.bounded j hj
  · show (r.students.insert (student i) (rot.member i (wins i + 1))).get? id = _
    rw [OrderedMap.get?_insert, h.members]
    by_cases hid : id = student i
    · have hnumber := (eq_student_iff hi).1 hid
      rw [if_pos hid, hnumber, if_pos hi, Function.update_self]
    · have hnumber : id.number.toNat ≠ i := fun he => hid ((eq_student_iff hi).2 he)
      rw [if_neg hid, Function.update_of_ne hnumber]
  · -- the two groups of the move have changed, and the others have not
    have key_ne : ∀ {g' : Nat}, g' < rot.size → g ≠ g' → rot.key g ≠ rot.key g' :=
      fun hg' hne he => hne ((group_inj hg hg').1 (congrArg SectionKey.group he))
    have hkeys : rot.key (rot.place i (wins i + 1)) ≠ rot.key (rot.place i (wins i)) :=
      fun he => hmove.other (congrArg SectionKey.group he).symm
    have hleft := Registry.lookup_putSeats_self hmove.found (source.seats.vacate (student i))
    have hahead := (Registry.lookup_putSeats_of_ne hmove.found
      (source.seats.vacate (student i)) hkeys).trans hmove.found'
    by_cases hg_ahead : g = rot.place i (wins i + 1)
    · subst hg_ahead
      have hfree : destination.seats.holds (student i) = false := by
        rw [Bool.eq_false_iff, ne_eq, h.holds_iff place_lt hmove.found', toNat_student hi]
        exact fun hhere => place_succ_ne hhere.2.symm
      exact ⟨ref', _, Registry.lookup_putSeats_self hahead _, hdestination.units,
        hdestination.lock, hdestination.narrow.give hfree hplace⟩
    · have hkept := Registry.lookup_putSeats_of_ne hahead
        (destination.seats.give (student i) place) (key_ne place_lt hg_ahead)
      by_cases hg_left : g = rot.place i (wins i)
      · subst hg_left
        exact ⟨ref, _, hkept.trans hleft, hsource.units, hsource.lock,
          hsource.narrow.vacate (h.orderly hmove.found) (student i)⟩
      · obtain ⟨ref₁, s₁, found₁, hs₁⟩ := h.groups g hg
        have hkept' := Registry.lookup_putSeats_of_ne hmove.found
          (source.seats.vacate (student i)) (key_ne place_lt hg_left)
        exact ⟨ref₁, s₁, hkept.trans (hkept'.trans found₁), hs₁⟩

/-- A student ahead of whom there is a place moves there. -/
theorem attempt_room (setting : rot.Setting) (hi : i < rot.size) (unfinished : wins i < rot.rounds)
    (room : ¬ rot.Full r (rot.place i (wins i + 1))) :
    ∃ report o, rot.attempt r setting i = some (report, o) ∧ report.outcome = .done .done ∧
      rot.Invariant o.registry (Function.update wins i (wins i + 1)) := by
  obtain ⟨ref, source, ref', destination, hsource, hdestination, hmove⟩ :=
    h.exists_mayMove setting hi unfinished
  obtain ⟨place, hplace⟩ : ∃ place, destination.seats.nextPlace = some place :=
    Option.ne_none_iff_exists'.1 fun hnone => room ((full_iff hmove.found').2 hnone)
  obtain ⟨houtcome, hregistry⟩ := Registry.MayMove.handle_room
    (o := ⟨r, setting.now, setting.outbox⟩) hmove h.consistent.sound setting.cancelled
    setting.accepts hplace
  have hunits : Student.subUnits (rot.units.toUInt16 + rot.units.toUInt16) source.units =
      (rot.member i (wins i)).units := by
    have hsum := hmove.sum
    rw [hdestination.units] at hsum
    rw [hsource.units]
    exact Student.subUnits_of_addUnits? hsum
  rw [hunits, member_moved unfinished] at hregistry
  have hconsistent := (Office.handle_effect ⟨r, setting.now, setting.outbox⟩ setting.cancelled
    (.switchGroup (student i) (rot.key (rot.place i (wins i + 1))))).consistent h.consistent
  rw [hregistry] at hconsistent
  have hinvariant := h.moved hi unfinished hsource hdestination hmove hplace hconsistent
  rw [← hregistry] at hinvariant
  exact ⟨_, _, h.attempt_eq setting hi, houtcome, hinvariant⟩

end Invariant

/-- **The invariant holds in every state that attempts lead to.** -/
theorem Reachable.invariant (h : rot.Reachable r wins) : rot.Invariant r wins := by
  induction h with
  | start => exact invariant_start rot
  | @attempt r wins i report o setting before hi unfinished tried ih =>
    by_cases full : rot.Full r (rot.place i (wins i + 1))
    · obtain ⟨report', htried, houtcome⟩ := ih.attempt_full setting hi unfinished full
      rw [tried, Option.some.injEq, Prod.mk.injEq] at htried
      obtain ⟨rfl, rfl⟩ := htried
      rw [if_neg (by rw [houtcome]; exact nofun)]
      exact ih
    · obtain ⟨report', o', htried, houtcome, hinvariant⟩ :=
        ih.attempt_room setting hi unfinished full
      rw [tried, Option.some.injEq, Prod.mk.injEq] at htried
      obtain ⟨rfl, rfl⟩ := htried
      rw [if_pos houtcome]
      exact hinvariant

end Rotation

end CourseRegistration
