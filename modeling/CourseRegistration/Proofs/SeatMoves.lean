import CourseRegistration.Proofs.Ordered
import CourseRegistration.Proofs.Seats

/-!
# How seats change

`Seats.Move` lists the changes of a section's seats that are made in one go: a student is given the
next place, a place is taken back, a full section grows by the seat that a student gets, or the
capacity changes.  A section that has grown and not yet let its student in is in the middle of the
third; it is `Seats.raised`.

Two things are proved of every move.  It keeps the seats within their bounds, whoever moves and
whatever places they had before (`Move.bounded`).  And where nobody has two places, it leaves no
more registered seats idle in front of a waitlist than there were (`Move.idleAtMost`).
-/

namespace CourseRegistration.Seats

/-- The seats with one more registered seat. -/
def raised (s : Seats) : Seats :=
  { s with capacity := s.capacity + 1 }

/-- `Move new s s'` says that `s` becomes `s'` by one change, in which only students of whom `new`
holds are given a place. -/
inductive Move (new : StudentId → Prop) (s : Seats) : Seats → Prop
  /-- A student gets the next free place. -/
  | give {x place} (hx : new x) (vacant : s.nextPlace = some place) : Move new s (s.give x place)
  /-- A place is taken back. -/
  | vacate (x) : Move new s (s.vacate x)
  /-- A full section grows by a seat, which a student gets. -/
  | raiseAndGive {x} (hx : new x) (full : s.isFull = true)
      (fits : s.capacity.toNat + 1 < UInt64.size) : Move new s (s.raised.give x .registered)
  /-- The capacity changes to one that has room for everyone registered. -/
  | resize {n : UInt64} (enough : s.registered.size ≤ n.toNat) : Move new s (s.resize n)

variable {s s' : Seats} {x : StudentId} {place : Place} {n : UInt64} {new : StudentId → Prop}
  {k : Nat}

lemma isFull_iff : s.isFull = true ↔ s.capacity.toNat ≤ s.registered.size := by
  simp [isFull]

lemma capacity_raised (fits : s.capacity.toNat + 1 < UInt64.size) :
    s.raised.capacity.toNat = s.capacity.toNat + 1 := by
  have hone : (1 : UInt64).toNat = 1 := rfl
  rw [raised, UInt64.toNat_add, hone, Nat.mod_eq_of_lt fits]

/-- The next place is a registered seat if one is free, else a place on the waitlist. -/
lemma nextPlace_eq_some_iff : s.nextPlace = some place ↔
    place = .registered ∧ s.registered.size < s.capacity.toNat ∨
    place = .waitlisted ∧ s.capacity.toNat ≤ s.registered.size ∧
      s.waitlist.length < s.reserve.toNat := by
  unfold nextPlace
  split_ifs with hroom hwait
  · simp [hroom, Nat.not_le.2 hroom, eq_comm]
  · simp [hroom, Nat.not_lt.1 hroom, hwait, eq_comm]
  · simp [hroom, hwait]

/-- Every move leaves the reserve as it was. -/
lemma Move.reserve_eq (h : Move new s s') : s'.reserve = s.reserve := by
  cases h with
  | @give x place hx vacant => cases place <;> rfl
  | vacate x =>
    rcases vacate_cases s x with ⟨-, -, he⟩ | ⟨next, rest, -, -, he⟩ | ⟨-, he⟩ <;> rw [he]
  | raiseAndGive => rfl
  | resize => rfl

/-! ## Bounds -/

/-- No more students are registered than the capacity allows, and no more wait than the reserve. -/
structure Bounded (s : Seats) : Prop where
  registered_le : s.registered.size ≤ s.capacity.toNat
  waitlist_le : s.waitlist.length ≤ s.reserve.toNat

lemma bounded_vacant (capacity reserve : UInt64) : (vacant capacity reserve).Bounded :=
  ⟨Nat.zero_le _, Nat.zero_le _⟩

lemma Bounded.raised (hs : s.Bounded) (fits : s.capacity.toNat + 1 < UInt64.size) :
    s.raised.Bounded := by
  refine ⟨?_, hs.waitlist_le⟩
  rw [capacity_raised fits]
  exact Nat.le_succ_of_le hs.registered_le

/-- A student who has a place already may be given the next one too. -/
lemma Bounded.give (hs : s.Bounded) (x : StudentId) (vacant : s.nextPlace = some place) :
    (s.give x place).Bounded := by
  rcases nextPlace_eq_some_iff.1 vacant with ⟨rfl, hroom⟩ | ⟨rfl, -, hwait⟩
  · have := s.registered.size_insert_le x
    refine ⟨?_, hs.waitlist_le⟩
    show (s.registered.insert x).size ≤ s.capacity.toNat
    omega
  · refine ⟨hs.registered_le, ?_⟩
    show (s.waitlist ++ [x]).length ≤ s.reserve.toNat
    rw [List.length_append, List.length_singleton]
    exact hwait

lemma Bounded.vacate (hs : s.Bounded) (x : StudentId) : (s.vacate x).Bounded := by
  have hregistered := hs.registered_le
  have hwaitlist := hs.waitlist_le
  rcases vacate_cases s x with ⟨hx, hw, he⟩ | ⟨next, rest, hx, hw, he⟩ | ⟨hx, he⟩
  · have hsize := OrderedSet.size_erase hx
    rw [he]
    exact ⟨Nat.le_trans (Nat.le_of_lt (Nat.lt_of_succ_le (Nat.le_of_eq hsize))) hregistered,
      hwaitlist⟩
  · -- the seat that was freed is the one that the head of the waitlist gets
    have hsize := OrderedSet.size_erase hx
    have hnext := (s.registered.erase x).size_insert_le next
    rw [hsize] at hnext
    rw [hw] at hwaitlist
    rw [he]
    exact ⟨Nat.le_trans hnext hregistered, Nat.le_trans (Nat.le_succ _) hwaitlist⟩
  · rw [he]
    exact ⟨hregistered, Nat.le_trans List.length_erase_le hwaitlist⟩

lemma length_promoted : (s.promoted n).length = s.promotable n := by
  rw [promoted, List.length_take]
  exact Nat.min_eq_left (Nat.min_le_right _ _)

/-- No more move up than there are new seats. -/
lemma size_resize_le (fits : s.registered.size ≤ s.capacity.toNat)
    (enough : s.registered.size ≤ n.toNat) : (s.resize n).registered.size ≤ n.toNat := by
  have hsize := s.registered.size_insertAll_le (s.promoted n)
  have hnew : s.promotable n ≤ n.toNat - s.capacity.toNat := Nat.min_le_left _ _
  rw [length_promoted] at hsize
  show (s.registered.insertAll (s.promoted n)).size ≤ n.toNat
  omega

lemma Bounded.resize (hs : s.Bounded) (enough : s.registered.size ≤ n.toNat) :
    (s.resize n).Bounded := by
  constructor
  · exact size_resize_le hs.registered_le enough
  · have := hs.waitlist_le
    show (s.waitlist.drop (s.promotable n)).length ≤ s.reserve.toNat
    rw [List.length_drop]
    omega

/-- **Every move keeps the seats within their bounds**, whoever is given a place. -/
theorem Move.bounded (h : Move new s s') (hs : s.Bounded) : s'.Bounded := by
  cases h with
  | give hx vacant => exact hs.give _ vacant
  | vacate x => exact hs.vacate x
  | raiseAndGive hx full fits =>
    -- once the section has grown, the new seat is the next place
    have hroom := capacity_raised fits
    have := hs.registered_le
    exact (hs.raised fits).give _ (nextPlace_eq_some_iff.2 (.inl ⟨rfl, by
      show s.registered.size < s.raised.capacity.toNat
      omega⟩))
  | resize enough => exact hs.resize enough

/-! ## Idle seats -/

/-- While somebody waits, no more than `k` registered seats are idle. -/
def IdleAtMost (k : Nat) (s : Seats) : Prop :=
  s.waitlist ≠ [] → s.capacity.toNat ≤ s.registered.size + k

lemma IdleAtMost.mono {m : Nat} (hs : s.IdleAtMost k) (h : k ≤ m) : s.IdleAtMost m :=
  fun hw => Nat.le_trans (hs hw) (Nat.add_le_add_left h _)

/-- A full section that grows has one idle seat. -/
lemma idleAtMost_raised (full : s.isFull = true) (fits : s.capacity.toNat + 1 < UInt64.size) :
    s.raised.IdleAtMost 1 := by
  intro _
  rw [capacity_raised fits]
  exact Nat.succ_le_succ (isFull_iff.1 full)

lemma IdleAtMost.give (hs : s.IdleAtMost k) (x : StudentId) (vacant : s.nextPlace = some place) :
    (s.give x place).IdleAtMost k := by
  intro hw
  rcases nextPlace_eq_some_iff.1 vacant with ⟨rfl, -⟩ | ⟨rfl, hfull, -⟩
  · have hsize := s.registered.size_le_size_insert x
    exact Nat.le_trans (hs hw) (Nat.add_le_add_right hsize _)
  · exact Nat.le_add_right_of_le hfull

/-- A section that grows for a student who has no place yet is full again with that student. -/
lemma idleAtMost_raiseAndGive (hx : s.holds x = false) (full : s.isFull = true)
    (fits : s.capacity.toNat + 1 < UInt64.size) : (s.raised.give x .registered).IdleAtMost k := by
  have hnew := (not_holds_iff.1 hx).1
  intro _
  show s.raised.capacity.toNat ≤ (s.registered.insert x).size + k
  rw [capacity_raised fits, OrderedSet.size_insert hnew]
  exact Nat.le_add_right_of_le (Nat.succ_le_succ (isFull_iff.1 full))

lemma IdleAtMost.vacate (hs : s.IdleAtMost k) (orderly : s.Orderly) (x : StudentId) :
    (s.vacate x).IdleAtMost k := by
  rcases vacate_cases s x with ⟨hx, hw, he⟩ | ⟨next, rest, hx, hw, he⟩ | ⟨hx, he⟩
  · rw [he]
    exact fun h => absurd hw h
  · -- the head of the waitlist is a student who was not registered
    have hwaits : s.waitlist ≠ [] := by
      rw [hw]
      exact List.cons_ne_nil _ _
    have hnext : next ∉ s.registered.erase x := by
      intro h
      refine orderly.separate (OrderedSet.mem_erase.1 h).2 ?_
      rw [hw]
      exact List.mem_cons_self
    have hsize : ((s.registered.erase x).insert next).size = s.registered.size := by
      rw [OrderedSet.size_insert hnext, OrderedSet.size_erase hx]
    intro _
    rw [he]
    show s.capacity.toNat ≤ ((s.registered.erase x).insert next).size + k
    rw [hsize]
    exact hs hwaits
  · rw [he]
    refine fun h => hs fun hnone => h ?_
    show s.waitlist.erase x = []
    rw [hnone, List.erase_nil]

lemma IdleAtMost.resize (hs : s.IdleAtMost k) (orderly : s.Orderly) (n : UInt64) :
    (s.resize n).IdleAtMost k := by
  intro hw
  change s.waitlist.drop (s.promotable n) ≠ [] at hw
  rw [ne_eq, List.drop_eq_nil_iff, Nat.not_le] at hw
  -- someone still waits, so every new seat has been given away
  have hall : s.promotable n = n.toNat - s.capacity.toNat := by
    unfold promotable at hw ⊢
    omega
  have hwaits : s.waitlist ≠ [] := List.ne_nil_of_length_pos (Nat.zero_lt_of_lt hw)
  have hnodup : (s.promoted n).Nodup := orderly.nodup.sublist (List.take_sublist _ _)
  have hnew : ∀ y ∈ s.promoted n, y ∉ s.registered := fun y hy hreg =>
    orderly.separate hreg (List.mem_of_mem_take hy)
  have hsize := OrderedSet.size_insertAll hnodup hnew
  rw [length_promoted, hall] at hsize
  have hidle := hs hwaits
  show n.toNat ≤ (s.registered.insertAll (s.promoted n)).size + k
  omega

/-- **No move leaves more seats idle in front of a waitlist than there were**, if nobody has two
places and whoever is given a place has none yet. -/
theorem Move.idleAtMost (h : Move (s.holds · = false) s s') (orderly : s.Orderly)
    (hs : s.IdleAtMost k) : s'.IdleAtMost k := by
  cases h with
  | give hx vacant => exact hs.give _ vacant
  | vacate x => exact hs.vacate orderly x
  | raiseAndGive hx full fits => exact idleAtMost_raiseAndGive hx full fits
  | resize enough => exact hs.resize orderly _

end CourseRegistration.Seats
