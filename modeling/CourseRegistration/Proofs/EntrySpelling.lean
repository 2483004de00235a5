import CourseRegistration.Proofs.Spelling
import CourseRegistration.Stored.Entry

/-!
# The spellings of a journal record

A stored entry names its kind in a member among those of its data.  The kind has to be found first,
wherever it stands, and then says which members are data.  All of the entry is looked at before
that, so its values must be plain.  `Entry.Spells` says which JSON values stand for an entry, and a
record is read exactly from what spells it, as snapshots are.

A record that is written may have its members in another order and others among them, inside the
entry too, as long as these have names that mean nothing there (`Record.Rearranged`).  The headline
is `journal_round_trip`: what is written is read back in whatever order, and no two records are
written alike.
-/

namespace CourseRegistration

namespace Json

instance : Spelled Bool where
  Spells j b := j = encode b
  decode?_eq_some {j b} := by
    cases j <;> simp [decode?, encode]
  spells_encode _ := rfl

/-! ## Plain values -/

/-- The value is `null`, a truth value, a text, or an integer of 64 bits with or without sign. -/
inductive Scalar : Json → Prop
  | null : Scalar .null
  | bool (b : Bool) : Scalar (.bool b)
  | text (s : String) : Scalar (text s)
  | int {n : Int} (low : -9223372036854775808 ≤ n) (high : n ≤ 18446744073709551615) :
    Scalar (int n)

/-- An integer of 64 bits has at most twenty digits, so none of them is dropped. -/
lemma Number.isFinite_integer {n : Int} (h : n.natAbs < UInt64.size) :
    (Number.integer n).isFinite = true := by
  have hlength : (Nat.toDigits 10 n.natAbs).length ≤ 20 :=
    (Nat.length_toDigits_le_iff (by decide) (by decide)).2 (Nat.lt_trans h (by decide))
  have hdigits : leadingDigits n.natAbs = (n.natAbs, 0) := by
    rw [leadingDigits, Nat.sub_eq_zero_of_le hlength]
    show (if n.natAbs / 1 < UInt64.size then _ else _) = _
    rw [Nat.div_one, if_pos h]
  rw [isFinite, staysFinite, hdigits]
  exact if_pos (.inr (Int.le_refl 0))

lemma Scalar.isPlain {j : Json} (h : Scalar j) (room : Nat) : j.isPlain room = true := by
  cases h with
  | null => rfl
  | bool b => rfl
  | text s => rfl
  | int low high =>
    refine Number.isFinite_integer ?_
    have hsize : UInt64.size = 18446744073709551616 := rfl
    omega

lemma isPlain_array {room : Nat} {items : List Json} :
    (Json.array items).isPlain (room + 1) = true ↔ ∀ item ∈ items, item.isPlain room = true := by
  rw [isPlain, Nat.add_sub_cancel, decide_eq_true (Nat.succ_pos room), Bool.true_and]
  induction items with
  | nil => simp [arePlainItems]
  | cons item rest ih => rw [arePlainItems, Bool.and_eq_true, ih, List.forall_mem_cons]

lemma isPlain_ofMembers {room : Nat} {members : Fields} :
    (ofMembers members).isPlain (room + 1) = true ↔ ∀ m ∈ members, m.2.isPlain room = true := by
  rw [ofMembers, isPlain, Nat.add_sub_cancel, decide_eq_true (Nat.succ_pos room), Bool.true_and]
  induction members with
  | nil => simp [arePlainMembers]
  | cons m rest ih =>
    rw [List.map_cons, arePlainMembers, Option.isSome_some, Bool.true_and, Bool.and_eq_true, ih,
      List.forall_mem_cons]

lemma scalar_student (id : StudentId) : Scalar (encode id) := by
  have hlt := id.number.toNat_lt
  exact .int (by omega) (by omega)

lemma scalar_course (course : CourseId) : Scalar (encode course) := by
  have hlow := course.number.le_toInt
  have hhigh := course.number.toInt_lt
  exact .int (by omega) (by omega)

lemma scalar_group (group : GroupId) : Scalar (encode group) := by
  have hlt := group.number.toNat_lt
  exact .int (by omega) (by omega)

lemma scalar_capacity (capacity : UInt64) : Scalar (encode capacity) := by
  have hlt := capacity.toNat_lt
  exact .int (by omega) (by omega)

/-! ## Rearranged objects -/

/-- The object has the given members in some order, and among them others with names and scalar
values of their own. -/
def Rearranged (members : Fields) (j : Json) : Prop :=
  ∃ given extras : Fields, j = .ofMembers given ∧ given.Perm (members ++ extras) ∧
    ∀ m ∈ extras, m.1 ∉ members.map (·.1) ∧ Scalar m.2

namespace Rearranged

variable {j : Json} {members : Fields}

/-- The members as they are, with no others. -/
lemma ofMembers (members : Fields) : Rearranged members (.ofMembers members) :=
  ⟨members, [], rfl, by rw [List.append_nil], nofun⟩

/-- A rearranged object gives the fields that its members give. -/
lemma gives (h : Rearranged members j) (hnodup : (members.map (·.1)).Nodup) :
    ∃ fields, Gives (members.map (·.1)) j fields ∧ members ⊆ fields := by
  obtain ⟨given, extras, rfl, hperm, hextras⟩ := h
  refine ⟨given, .object fun name hname => ?_, fun m hm => ?_⟩
  · have hothers : (extras.map (·.1)).count name = 0 := by
      refine List.count_eq_zero.2 fun hmem => ?_
      obtain ⟨m, hm, rfl⟩ := List.mem_map.1 hmem
      exact (hextras m hm).1 hname
    rw [(hperm.map _).count_eq, List.map_append, List.count_append, hothers]
    exact List.nodup_iff_count.1 hnodup name
  · exact hperm.mem_iff.2 (List.mem_append_left _ hm)

/-- A rearranged object of plain members is plain. -/
lemma isPlain {room : Nat} (h : Rearranged members j)
    (hmembers : ∀ m ∈ members, m.2.isPlain room = true) : j.isPlain (room + 1) = true := by
  obtain ⟨given, extras, rfl, hperm, hextras⟩ := h
  refine isPlain_ofMembers.2 fun m hm => ?_
  rcases List.mem_append.1 (hperm.mem_iff.1 hm) with hm | hm
  · exact hmembers m hm
  · exact (hextras m hm).2.isPlain room

end Rearranged

end Json

open Json

namespace Journal

variable {j data : Json} {kind : Kind} {fields : Fields} {depth : Nat}

/-! ## Entries -/

lemma Kind.ofName?_eq_some {s : String} : Kind.ofName? s = some kind ↔ s = kind.name := by
  constructor
  · intro h
    unfold ofName? at h
    split_ifs at h with henroll hdrop hswitch hresize
    · cases h
      exact henroll
    · cases h
      exact hdrop
    · cases h
      exact hswitch
    · cases h
      exact hresize
  · rintro rfl
    exact kind.ofName?_name

/-- The value names the kind, and the other members or items are the data: an object has one member
`action`, anywhere; an array begins with the name. -/
inductive Tagged (kind : Kind) : Json → Json → Prop
  | object {members : List (Literal × Json)}
    (one : members.filter isAction = [(some "action", text kind.name)]) :
    Tagged kind (.object members) (.object (members.filter fun m => !isAction m))
  | array {items : List Json} : Tagged kind (.array (text kind.name :: items)) (.array items)

lemma taggedRecord?_eq_some : taggedRecord? j = some (kind, data) ↔ Tagged kind j data := by
  constructor
  · intro h
    unfold taggedRecord? at h
    split at h
    · split at h
      · rename_i members _ member name hone
        obtain ⟨kind', hkind, heq⟩ := Option.map_eq_some_iff.1 h
        cases heq
        obtain rfl := Kind.ofName?_eq_some.1 hkind
        have hmem : (member, Json.string (some kind.name)) ∈ members.filter isAction := by
          rw [hone]
          exact List.mem_singleton_self _
        obtain rfl : member = some "action" := of_decide_eq_true (List.mem_filter.1 hmem).2
        exact .object hone
      · cases h
    · obtain ⟨kind', hkind, heq⟩ := Option.map_eq_some_iff.1 h
      cases heq
      obtain rfl := Kind.ofName?_eq_some.1 hkind
      exact .array
    · cases h
  · rintro (one | _)
    · simp only [taggedRecord?, one, text, Kind.ofName?_name, Option.map_some]
    · simp only [taggedRecord?, text, Kind.ofName?_name, Option.map_some]

lemma filter_members (p : Bool → Bool) (fields : Fields) :
    ((fields.map fun (name, value) => (some name, value)).filter fun m => p (isAction m)) =
      (fields.filter fun f => p (f.1 = "action")).map fun (name, value) => (some name, value) := by
  rw [List.filter_map]
  refine congrArg _ (List.filter_congr fun f _ => ?_)
  simp only [Function.comp_apply, isAction, Option.some.injEq]

lemma tagged_ofMembers
    (one : fields.filter (fun f => f.1 = "action") = [("action", text kind.name)]) :
    Tagged kind (.ofMembers fields) (.ofMembers (fields.filter fun f => !(f.1 = "action"))) := by
  rw [ofMembers, ofMembers, ← filter_members fun b => !b]
  refine .object ?_
  rw [filter_members fun b => b, one]
  rfl

/-- In a rearranged object the kind is found wherever it stands, and what is left is an arrangement
of the data. -/
lemma tagged_of_rearranged (h : Rearranged (("action", text kind.name) :: fields) j)
    (haction : "action" ∉ fields.map (·.1)) :
    ∃ data, Tagged kind j data ∧ Rearranged fields data := by
  obtain ⟨given, extras, rfl, hperm, hextras⟩ := h
  have hdata : ∀ m ∈ fields ++ extras, m.1 ≠ "action" := by
    intro m hm hname
    rcases List.mem_append.1 hm with hm | hm
    · exact haction (hname ▸ List.mem_map.2 ⟨m, hm, rfl⟩)
    · exact (hextras m hm).1 (hname ▸ List.mem_cons_self ..)
  have hone : given.filter (fun f => f.1 = "action") = [("action", text kind.name)] := by
    refine List.perm_singleton.1 ((hperm.filter _).trans (.of_eq ?_))
    rw [List.cons_append, List.filter_cons_of_pos (by simp), List.filter_eq_nil_iff.2]
    exact fun m hm => by simpa using hdata m hm
  have hrest : (given.filter fun f => !(f.1 = "action")).Perm (fields ++ extras) := by
    refine (hperm.filter _).trans (.of_eq ?_)
    rw [List.cons_append, List.filter_cons_of_neg (by simp), List.filter_eq_self.2]
    exact fun m hm => by simpa using hdata m hm
  refine ⟨_, tagged_ofMembers hone, _, extras, rfl, hrest, fun m hm => ⟨fun hname => ?_, ?_⟩⟩
  · exact (hextras m hm).1 (List.mem_cons_of_mem _ hname)
  · exact (hextras m hm).2

namespace Entry

variable {e : Entry}

/-- The fields give the data of the entry. -/
def GivenBy (fields : Fields) : Entry → Prop
  | enroll student key waitlisted =>
    fields.Gives "student" student ∧ fields.Gives "course" key.course ∧
      fields.Gives "group" key.group ∧ fields.Gives "reserved" waitlisted
  | drop student course => fields.Gives "student" student ∧ fields.Gives "course" course
  | switchGroup student destination =>
    fields.Gives "student" student ∧ fields.Gives "course" destination.course ∧
      fields.Gives "group" destination.group
  | resize key capacity promoted =>
    fields.Gives "course" key.course ∧ fields.Gives "group" key.group ∧
      fields.Gives "new_capacity" capacity ∧ fields.Gives "promoted" promoted

/-- The JSON value may stand for the entry inside `depth` arrays and objects. -/
def Spells (depth : Nat) (j : Json) (e : Entry) : Prop :=
  j.isPlain (nestingLimit - depth) = true ∧
    ∃ data fields, Tagged e.kind j data ∧ Gives e.kind.fieldNames data fields ∧ e.GivenBy fields

lemma nodup_fieldNames (kind : Kind) : kind.fieldNames.Nodup := by
  cases kind <;> decide

/-- Reading goes on with the section that is named by course and group. -/
lemma sectionKey?_bind {α : Type} {next : SectionKey → Option α} {a : α}
    (course : (fields.map (·.1)).count "course" ≤ 1)
    (group : (fields.map (·.1)).count "group" ≤ 1) :
    (sectionKey? fields >>= next) = some a ↔
      ∃ key : SectionKey, (fields.Gives "course" key.course ∧ fields.Gives "group" key.group) ∧
        next key = some a := by
  unfold sectionKey?
  simp only [bind_assoc, pure_bind, Fields.required_bind course, Fields.required_bind group]
  constructor
  · rintro ⟨c, hcourse, g, hgroup, hnext⟩
    exact ⟨⟨c, g⟩, ⟨hcourse, hgroup⟩, hnext⟩
  · rintro ⟨key, ⟨hcourse, hgroup⟩, hnext⟩
    exact ⟨_, hcourse, _, hgroup, hnext⟩

/-- The entry of a kind is read from the fields that give its data. -/
lemma ofFields?_eq_some
    (once : ∀ name ∈ kind.fieldNames, (fields.map (·.1)).count name ≤ 1) :
    ofFields? kind fields = some e ↔ e.kind = kind ∧ e.GivenBy fields := by
  cases kind <;> unfold ofFields? <;>
    simp (disch := exact once _ (by decide)) only [↓Fields.required_bind, ↓sectionKey?_bind,
      Option.pure_def, Option.some.injEq]
  case enroll =>
    constructor
    · rintro ⟨_, hstudent, _, ⟨hcourse, hgroup⟩, _, hreserved, rfl⟩
      exact ⟨rfl, hstudent, hcourse, hgroup, hreserved⟩
    · rintro ⟨hkind, h⟩
      cases e <;> cases hkind
      obtain ⟨hstudent, hcourse, hgroup, hreserved⟩ := h
      exact ⟨_, hstudent, _, ⟨hcourse, hgroup⟩, _, hreserved, rfl⟩
  case drop =>
    constructor
    · rintro ⟨_, hstudent, _, hcourse, rfl⟩
      exact ⟨rfl, hstudent, hcourse⟩
    · rintro ⟨hkind, h⟩
      cases e <;> cases hkind
      obtain ⟨hstudent, hcourse⟩ := h
      exact ⟨_, hstudent, _, hcourse, rfl⟩
  case switchGroup =>
    constructor
    · rintro ⟨_, hstudent, _, ⟨hcourse, hgroup⟩, rfl⟩
      exact ⟨rfl, hstudent, hcourse, hgroup⟩
    · rintro ⟨hkind, h⟩
      cases e <;> cases hkind
      obtain ⟨hstudent, hcourse, hgroup⟩ := h
      exact ⟨_, hstudent, _, ⟨hcourse, hgroup⟩, rfl⟩
  case resize =>
    constructor
    · rintro ⟨_, ⟨hcourse, hgroup⟩, _, hcapacity, _, hpromoted, rfl⟩
      exact ⟨rfl, hcourse, hgroup, hcapacity, hpromoted⟩
    · rintro ⟨hkind, h⟩
      cases e <;> cases hkind
      obtain ⟨hcourse, hgroup, hcapacity, hpromoted⟩ := h
      exact ⟨_, ⟨hcourse, hgroup⟩, _, hcapacity, _, hpromoted, rfl⟩

/-- **An entry is read from what spells it.** -/
theorem ofJson?_eq_some : ofJson? depth j = some e ↔ e.Spells depth j := by
  unfold ofJson? Spells
  split_ifs with hplain
  · simp only [Option.bind_eq_bind, Option.bind_eq_some_iff, Prod.exists, taggedRecord?_eq_some,
      record?_eq_some, hplain, true_and]
    constructor
    · rintro ⟨kind, data, htag, fields, hgives, hread⟩
      have honce : ∀ name ∈ kind.fieldNames, (fields.map (·.1)).count name ≤ 1 :=
        fun _ hname => hgives.once (nodup_fieldNames kind) hname
      obtain ⟨rfl, hgiven⟩ := (ofFields?_eq_some honce).1 hread
      exact ⟨data, fields, htag, hgives, hgiven⟩
    · rintro ⟨data, fields, htag, hgives, hgiven⟩
      refine ⟨e.kind, data, htag, fields, hgives, (ofFields?_eq_some ?_).2 ⟨rfl, hgiven⟩⟩
      exact fun _ hname => hgives.once (nodup_fieldNames e.kind) hname
  · simp only [hplain, false_and, reduceCtorEq]

lemma map_fst_fields (e : Entry) : e.fields.map (·.1) = e.kind.fieldNames := by
  cases e <;> rfl

lemma action_not_mem_fieldNames (kind : Kind) : "action" ∉ kind.fieldNames := by
  cases kind <;> decide

/-- Fields among which are those that are written give the data of the entry. -/
lemma givenBy_of_subset (h : e.fields ⊆ fields) : e.GivenBy fields := by
  cases e with
  | enroll student key waitlisted =>
    exact ⟨.of_mem (h (by simp [Entry.fields])), .of_mem (h (by simp [Entry.fields])),
      .of_mem (h (by simp [Entry.fields])), .of_mem (h (by simp [Entry.fields]))⟩
  | drop student course =>
    exact ⟨.of_mem (h (by simp [Entry.fields])), .of_mem (h (by simp [Entry.fields]))⟩
  | switchGroup student destination =>
    exact ⟨.of_mem (h (by simp [Entry.fields])), .of_mem (h (by simp [Entry.fields])),
      .of_mem (h (by simp [Entry.fields]))⟩
  | resize key capacity promoted =>
    exact ⟨.of_mem (h (by simp [Entry.fields])), .of_mem (h (by simp [Entry.fields])),
      .of_mem (h (by simp [Entry.fields])), .of_mem (h (by simp [Entry.fields]))⟩

/-- No value that is written for an entry is nested deeper than a list of students. -/
lemma isPlain_of_mem_fields (room : Nat) {m : String × Json} (h : m ∈ e.fields) :
    m.2.isPlain (room + 1) = true := by
  cases e <;> simp only [Entry.fields, List.mem_cons, List.not_mem_nil, or_false] at h
  case enroll student key waitlisted =>
    rcases h with rfl | rfl | rfl | rfl
    · exact (scalar_student student).isPlain _
    · exact (scalar_course key.course).isPlain _
    · exact (scalar_group key.group).isPlain _
    · rfl
  case drop student course =>
    rcases h with rfl | rfl
    · exact (scalar_student student).isPlain _
    · exact (scalar_course course).isPlain _
  case switchGroup student destination =>
    rcases h with rfl | rfl | rfl
    · exact (scalar_student student).isPlain _
    · exact (scalar_course destination.course).isPlain _
    · exact (scalar_group destination.group).isPlain _
  case resize key capacity promoted =>
    rcases h with rfl | rfl | rfl | rfl
    · exact (scalar_course key.course).isPlain _
    · exact (scalar_group key.group).isPlain _
    · exact (scalar_capacity capacity).isPlain _
    · refine isPlain_array.2 fun item hitem => ?_
      obtain ⟨student, -, rfl⟩ := List.mem_map.1 hitem
      exact (scalar_student student).isPlain _

/-- The members that are written for the entry, in some order and with others among them. -/
def Rearranged (e : Entry) (j : Json) : Prop :=
  Json.Rearranged (("action", text e.kind.name) :: e.fields) j

/-- A rearranged entry spells the entry, where an object and a list in it may stand. -/
lemma Rearranged.spells (h : e.Rearranged j) (hdepth : depth + 2 ≤ nestingLimit) :
    e.Spells depth j := by
  have haction : "action" ∉ e.fields.map (·.1) := by
    rw [map_fst_fields]
    exact action_not_mem_fieldNames e.kind
  constructor
  · obtain ⟨room, hroom⟩ : ∃ room, nestingLimit - depth = room + 2 :=
      ⟨nestingLimit - depth - 2, by omega⟩
    rw [hroom]
    refine Json.Rearranged.isPlain h (List.forall_mem_cons.2 ⟨rfl, fun m hm => ?_⟩)
    exact isPlain_of_mem_fields room hm
  · obtain ⟨data, htag, hdata⟩ := tagged_of_rearranged h haction
    obtain ⟨fields, hgives, hsubset⟩ := hdata.gives (by
      rw [map_fst_fields]
      exact nodup_fieldNames e.kind)
    rw [map_fst_fields] at hgives
    exact ⟨data, fields, htag, hgives, givenBy_of_subset hsubset⟩

end Entry

namespace Record

variable {r : Record}

/-- The fields give the department, and the entry as it stands inside a record. -/
structure GivenBy (fields : Fields) (r : Record) : Prop where
  department : fields.Gives "department" r.department
  entry : ∃ intent, ("intent", intent) ∈ fields ∧ r.entry.Spells 1 intent

/-- The members that are written for the record and, inside, for its entry, each in some order and
with others among them. -/
def Rearranged (r : Record) (j : Json) : Prop :=
  ∃ intent, r.entry.Rearranged intent ∧
    Json.Rearranged [("department", encode r.department), ("intent", intent)] j

/-- A rearranged record spells the record. -/
lemma Rearranged.spells (h : r.Rearranged j) :
    ∃ fields, Gives fieldNames j fields ∧ r.GivenBy fields := by
  obtain ⟨intent, hentry, hmembers⟩ := h
  obtain ⟨fields, hgives, hsubset⟩ := hmembers.gives (by simp)
  refine ⟨fields, hgives, .of_mem (hsubset (by simp)), intent, hsubset (by simp), ?_⟩
  exact hentry.spells (by decide)

/-- What is written is one of the arrangements. -/
lemma rearranged_encode (r : Record) : r.Rearranged (encode r) :=
  ⟨r.entry.toJson, .ofMembers _, .ofMembers _⟩

instance : Spelled Record where
  Spells j r := ∃ fields, Gives fieldNames j fields ∧ r.GivenBy fields
  decode?_eq_some := record_eq_some (by decide) fun fields once => by
    simp (disch := exact once _ (by decide)) only [↓Fields.required_bind, Option.bind_eq_bind,
      Option.bind_eq_some_iff, Fields.lookup_eq_some_iff, Entry.ofJson?_eq_some, Option.pure_def,
      Option.some.injEq]
    constructor
    · rintro ⟨_, hdepartment, _, ⟨intent, hmem, hentry⟩, rfl⟩
      exact ⟨hdepartment, intent, hmem, hentry⟩
    · rintro ⟨hdepartment, intent, hmem, hentry⟩
      exact ⟨_, hdepartment, _, ⟨intent, hmem, hentry⟩, rfl⟩
  spells_encode r := r.rearranged_encode.spells

/-- The JSON text of a record. -/
def toText (r : Record) : String :=
  (encode r).toText

/-- The record in a JSON text. -/
def ofText? (text : String) : Option Record :=
  (read? text).bind decode?

lemma ofText?_toText (r : Record) : ofText? r.toText = some r := by
  rw [ofText?, toText, read?_toText, Option.bind_some, decode?_encode]

/-- **Records survive the journal.**  The text of a record holds that record, and is the text of no
other.  A value in which the members of the record and of its entry stand in any order, the kind
anywhere among them, and scalar members with names of their own among them, is read as the record
too, and so is each text that denotes such a value. -/
theorem journal_round_trip (r : Record) :
    ofText? r.toText = some r ∧
      (∀ r' : Record, r'.toText = r.toText → r' = r) ∧
      ∀ j, r.Rearranged j →
        decode? j = some r ∧ ∀ text, read? text = some j → ofText? text = some r := by
  refine ⟨ofText?_toText r, fun r' htext => ?_, fun j hj => ?_⟩
  · have hr' := ofText?_toText r'
    rw [htext, ofText?_toText] at hr'
    exact (Option.some.inj hr').symm
  · have hread : decode? j = some r := Spelled.decode?_eq_some.2 hj.spells
    refine ⟨hread, fun text htext => ?_⟩
    rw [ofText?, htext, Option.bind_some, hread]

/-- A record that frees a place, with all members in reverse, a group that such an entry does not
have, and a note. -/
theorem journal_round_trip_small :
    let r : Record := ⟨⟨2⟩, .drop ⟨5⟩ ⟨101⟩⟩
    let intent : Json := .ofMembers
      [("group", int 3), ("course", int 101), ("student", int 5), ("action", text "disenroll")]
    let j : Json := .ofMembers [("note", .null), ("intent", intent), ("department", int 2)]
    r.Rearranged j ∧ decode? j = some r ∧ ofText? j.toText = some r := by
  intro r intent j
  have hintent : r.entry.Rearranged intent := by
    have hperm := List.reverse_perm
      [("action", text "disenroll"), ("student", int 5), ("course", int 101), ("group", int 3)]
    refine ⟨_, [("group", int 3)], rfl, hperm, List.forall_mem_singleton.2 ⟨?_, ?_⟩⟩
    · show "group" ∉ ["action", "student", "course"]
      decide
    · exact .int (by decide) (by decide)
  have hj : r.Rearranged j := by
    have hperm := List.reverse_perm [("department", int 2), ("intent", intent), ("note", .null)]
    refine ⟨intent, hintent, _, [("note", .null)], rfl, hperm,
      List.forall_mem_singleton.2 ⟨?_, .null⟩⟩
    show "note" ∉ ["department", "intent"]
    decide
  obtain ⟨-, -, hread⟩ := journal_round_trip r
  exact ⟨hj, (hread j hj).1, (hread j hj).2 _ (read?_toText j)⟩

end Record

end Journal

end CourseRegistration
