import CourseRegistration.Proofs.Decision
import CourseRegistration.Proofs.JsonText
import CourseRegistration.Stored.Snapshot
import Mathlib.Data.List.Forall2

/-!
# The spellings of a snapshot

A snapshot is written in one way and read in many: the members of a record come in any order, those
with a default may be left out, others may be among them, an array may stand for a record, and an
object for a name.  For each type that is stored, `Json.Spells` says which JSON values stand for a
value of it.  A value is read exactly from what spells it, and what is written is a spelling, so
reading undoes writing.

Records are what `Json.Gives` and a structure `GivenBy` of each record describe together: the first
says which fields a JSON value gives, the second what the fields say about the record.
-/

namespace CourseRegistration

namespace Json

/-! ## Spellings -/

/-- Coded types with a description of all JSON values that are read as a given value. -/
class Spelled (α : Type) [Coded α] where
  /-- The JSON value may stand for the value. -/
  Spells : Json → α → Prop
  /-- What is read is what is spelled. -/
  decode?_eq_some : ∀ {j : Json} {a : α}, decode? j = some a ↔ Spells j a
  /-- What is written is a spelling. -/
  spells_encode : ∀ a : α, Spells (encode a) a

export Spelled (Spells)

/-- **What is written is read back.** -/
theorem decode?_encode {α : Type} [Coded α] [Spelled α] (a : α) : decode? (encode a) = some a :=
  Spelled.decode?_eq_some.2 (Spelled.spells_encode a)

/-! ## Scalars -/

variable {j : Json} {n low high : Int}

lemma intBetween?_eq_some :
    intBetween? low high j = some n ↔ j = int n ∧ low ≤ n ∧ n ≤ high := by
  constructor
  · intro h
    unfold intBetween? at h
    split at h
    · split_ifs at h with hbounds
      cases h
      exact ⟨rfl, hbounds⟩
    · cases h
  · rintro ⟨rfl, hbounds⟩
    exact if_pos hbounds

/-- A signed word is read from the token that is written for it, and from no other. -/
lemma signed_eq_some {α : Type} (f : α → Int) (g : Int → α) {a : α}
    (hbounds : low ≤ f a ∧ f a ≤ high) (hof : ∀ n, low ≤ n → n ≤ high → f (g n) = n)
    (hto : g (f a) = a) : (intBetween? low high j).map g = some a ↔ j = int (f a) := by
  simp only [Option.map_eq_some_iff, intBetween?_eq_some]
  constructor
  · rintro ⟨n, ⟨rfl, hlow, hhigh⟩, rfl⟩
    rw [hof n hlow hhigh]
  · rintro rfl
    exact ⟨_, ⟨rfl, hbounds⟩, hto⟩

/-- An unsigned word is read from the token that is written for it, and from no other. -/
lemma unsigned_eq_some {α : Type} (f : α → Nat) (g : Nat → α) {a : α} {size : Nat}
    (hhigh : high + 1 = size) (hlt : f a < size) (hof : ∀ {n}, n < size → f (g n) = n)
    (hto : g (f a) = a) :
    (intBetween? 0 high j).map (fun n => g n.toNat) = some a ↔ j = int (f a) := by
  refine signed_eq_some (fun a => (f a : Int)) (fun n => g n.toNat) ⟨?_, ?_⟩ (fun n h0 hn => ?_) ?_
  · omega
  · omega
  · rw [hof (by omega), Int.toNat_of_nonneg h0]
  · exact hto

instance : Spelled UInt8 where
  Spells j n := j = encode n
  decode?_eq_some {_ n} := unsigned_eq_some UInt8.toNat UInt8.ofNat rfl n.toNat_lt
    UInt8.toNat_ofNat_of_lt' UInt8.ofNat_toNat
  spells_encode _ := rfl

instance : Spelled UInt16 where
  Spells j n := j = encode n
  decode?_eq_some {_ n} := unsigned_eq_some UInt16.toNat UInt16.ofNat rfl n.toNat_lt
    UInt16.toNat_ofNat_of_lt' UInt16.ofNat_toNat
  spells_encode _ := rfl

instance : Spelled UInt64 where
  Spells j n := j = encode n
  decode?_eq_some {_ n} := unsigned_eq_some UInt64.toNat UInt64.ofNat rfl n.toNat_lt
    UInt64.toNat_ofNat_of_lt' UInt64.ofNat_toNat
  spells_encode _ := rfl

instance : Spelled Int32 where
  Spells j n := j = encode n
  decode?_eq_some {_ n} := by
    have hlow := n.le_toInt
    have hhigh := n.toInt_lt
    exact signed_eq_some Int32.toInt Int32.ofInt (by omega)
      (fun m h h' => Int32.toInt_ofInt_of_le (by omega) (by omega)) n.ofInt_toInt
  spells_encode _ := rfl

instance : Spelled Int64 where
  Spells j n := j = encode n
  decode?_eq_some {_ n} := by
    have hlow := n.le_toInt
    have hhigh := n.toInt_lt
    exact signed_eq_some Int64.toInt Int64.ofInt (by omega)
      (fun m h h' => Int64.toInt_ofInt_of_le (by omega) (by omega)) n.ofInt_toInt
  spells_encode _ := rfl

instance : Spelled String where
  Spells j s := j = encode s
  decode?_eq_some {j s} := by
    cases j <;> simp [decode?, encode, text]
  spells_encode _ := rfl

/-! ## Lists and options -/

/-- A list is read if its items are. -/
lemma mapM_eq_some {α β : Type} {f : α → Option β} {as : List α} {bs : List β} :
    as.mapM f = some bs ↔ List.Forall₂ (fun a b => f a = some b) as bs := by
  induction as generalizing bs with
  | nil =>
    rw [List.forall₂_nil_left_iff]
    simp [eq_comm]
  | cons a rest ih =>
    rw [List.forall₂_cons_left_iff]
    simp only [List.mapM_cons, Option.bind_eq_bind, Option.bind_eq_some_iff, Option.pure_def,
      Option.some.injEq, ih]
    constructor
    · rintro ⟨b, hb, bs, hbs, rfl⟩
      exact ⟨b, bs, hb, hbs, rfl⟩
    · rintro ⟨b, bs, hb, hbs, rfl⟩
      exact ⟨b, hb, bs, hbs, rfl⟩

/-- A list is spelled by an array of spellings. -/
instance {α : Type} [Coded α] [Spelled α] : Spelled (List α) where
  Spells j l := ∃ items, j = .array items ∧ List.Forall₂ Spells items l
  decode?_eq_some {j l} := by
    cases j <;> simp [decode?, mapM_eq_some, Spelled.decode?_eq_some]
  spells_encode l := by
    refine ⟨_, rfl, ?_⟩
    rw [List.forall₂_map_left_iff]
    exact List.forall₂_same.2 fun a _ => Spelled.spells_encode a

/-- No value is spelled `null`, so that an absent one can be. -/
class NeverNull (α : Type) [Coded α] [Spelled α] : Prop where
  not_spells_null : ∀ a : α, ¬ Spells .null a

instance : NeverNull Int64 := ⟨fun _ h => nomatch h⟩

/-- An absent value is spelled `null`, a present one as without the option. -/
instance {α : Type} [Coded α] [Spelled α] [NeverNull α] : Spelled (Option α) where
  Spells j
    | none => j = .null
    | some a => Spells j a
  decode?_eq_some {j o} := by
    by_cases hnull : j = .null
    · subst hnull
      cases o with
      | none => exact iff_of_true rfl rfl
      | some a => exact iff_of_false nofun (NeverNull.not_spells_null a)
    · have hsome : (decode? j : Option (Option α)) = (decode? j).map some := by
        cases j with
        | null => exact absurd rfl hnull
        | _ => rfl
      rw [hsome]
      cases o with
      | none => simpa using hnull
      | some a => simpa using Spelled.decode?_eq_some
  spells_encode
    | none => rfl
    | some a => Spelled.spells_encode a

/-! ## Records -/

/-- The value gives the fields of a record with the given names: an object gives them in any order,
each at most once, and may have members with other names; an array gives the first ones in order. -/
inductive Gives (names : List String) : Json → Fields → Prop
  | object {fields} (once : ∀ name ∈ names, (fields.map (·.1)).count name ≤ 1) :
      Gives names (.ofMembers fields) fields
  | array {items} (short : items.length ≤ names.length) :
      Gives names (.array items) (names.zip items)

namespace Fields

variable {fields : Fields} {name : String} {j : Json}

/-- The field is given, as a spelling of the value. -/
def Gives {α : Type} [Coded α] [Spelled α] (fields : Fields) (name : String) (a : α) : Prop :=
  ∃ j, (name, j) ∈ fields ∧ Spells j a

/-- The field is given as a spelling of the value, or is not given and the value is the default. -/
def GivesOr {α : Type} [Coded α] [Spelled α] (fields : Fields) (name : String) (default a : α) :
    Prop :=
  fields.Gives name a ∨ name ∉ fields.map (·.1) ∧ a = default

lemma Gives.of_mem {α : Type} [Coded α] [Spelled α] {a : α} (h : (name, encode a) ∈ fields) :
    fields.Gives name a :=
  ⟨_, h, Spelled.spells_encode a⟩

/-- Where a name is given once, its value is the one that is found. -/
lemma lookup_eq_some_iff (once : (fields.map (·.1)).count name ≤ 1) :
    fields.lookup name = some j ↔ (name, j) ∈ fields := by
  induction fields with
  | nil => simp
  | cons f rest ih =>
    obtain ⟨n, v⟩ := f
    rw [List.map_cons, List.count_cons] at once
    by_cases h : n = name
    · subst h
      have hnone : (n, j) ∉ rest := by
        intro hmem
        have hpos : 0 < (rest.map (·.1)).count n :=
          List.count_pos_iff.2 (List.mem_map.2 ⟨_, hmem, rfl⟩)
        simp only [beq_self_eq_true, if_true] at once
        omega
      simp [hnone, eq_comm]
    · have hne : (name == n) = false := by simpa using Ne.symm h
      rw [List.lookup_cons, hne, List.mem_cons, ih (by simpa [h] using once)]
      simp [Ne.symm h]

variable {α : Type} [Coded α] [Spelled α] {a default : α}

lemma required_eq_some (once : (fields.map (·.1)).count name ≤ 1) :
    fields.required name = some a ↔ fields.Gives name a := by
  simp only [required, Option.bind_eq_some_iff, lookup_eq_some_iff once, Spelled.decode?_eq_some,
    Gives]

lemma optional_eq_some (once : (fields.map (·.1)).count name ≤ 1) :
    fields.optional name default = some a ↔ fields.GivesOr name default a := by
  unfold optional GivesOr
  cases hlookup : fields.lookup name with
  | none =>
    have habsent : name ∉ fields.map (·.1) := by
      intro hmem
      obtain ⟨f, hf, rfl⟩ := List.mem_map.1 hmem
      simpa using List.lookup_eq_none_iff.1 hlookup f hf
    have hgives : ¬ fields.Gives name a := by
      rintro ⟨j, hmem, -⟩
      exact habsent (List.mem_map.2 ⟨_, hmem, rfl⟩)
    simp [hgives, habsent, eq_comm]
  | some j =>
    have hgiven := (lookup_eq_some_iff once).1 hlookup
    have hpresent : name ∈ fields.map (·.1) := List.mem_map.2 ⟨_, hgiven, rfl⟩
    have hgives := required_eq_some (a := a) once
    rw [required, hlookup, Option.bind_some] at hgives
    simp [hgives, hpresent]

variable {β : Type} {next : α → Option β} {b : β}

/-- Reading goes on with a field that is given. -/
lemma required_bind (once : (fields.map (·.1)).count name ≤ 1) :
    (fields.required name >>= next) = some b ↔ ∃ a, fields.Gives name a ∧ next a = some b := by
  simp only [Option.bind_eq_bind, Option.bind_eq_some_iff, required_eq_some once]

/-- Reading goes on with a field that is given, or with its default. -/
lemma optional_bind (once : (fields.map (·.1)).count name ≤ 1) :
    (fields.optional name default >>= next) = some b ↔
      ∃ a, fields.GivesOr name default a ∧ next a = some b := by
  simp only [Option.bind_eq_bind, Option.bind_eq_some_iff, optional_eq_some once]

end Fields

/-- The items of a short array get the first names. -/
lemma map_fst_zip_sublist {α β : Type} (as : List α) (bs : List β) :
    ((as.zip bs).map (·.1)).Sublist as := by
  induction as generalizing bs with
  | nil => exact .slnil
  | cons a rest ih =>
    cases bs with
    | nil => exact List.nil_sublist _
    | cons b bs => exact (ih bs).cons_cons a

lemma Gives.once {names : List String} {j : Json} {fields : Fields} (h : Gives names j fields)
    (hnames : names.Nodup) {name : String} (hname : name ∈ names) :
    (fields.map (·.1)).count name ≤ 1 := by
  cases h with
  | object once => exact once name hname
  | @array items short =>
    exact Nat.le_trans ((map_fst_zip_sublist names items).count_le name)
      (List.nodup_iff_count.1 hnames name)

/-- Members are named values if each of their names denotes a text. -/
lemma namedMembers?_eq_some {members : List (Literal × Json)} {fields : Fields} :
    namedMembers? members = some fields ↔
      members = fields.map fun (name, value) => (some name, value) := by
  have hmember : ∀ (m : Literal × Json) (f : String × Json),
      (m.1.map fun n => (n, m.2)) = some f ↔ m = (some f.1, f.2) := by
    rintro ⟨name, value⟩ ⟨n, v⟩
    simp only [Option.map_eq_some_iff, Prod.mk.injEq]
    constructor
    · rintro ⟨_, rfl, rfl, rfl⟩
      exact ⟨rfl, rfl⟩
    · rintro ⟨rfl, rfl⟩
      exact ⟨n, rfl, rfl, rfl⟩
  simp only [namedMembers?, mapM_eq_some, hmember]
  rw [← List.forall₂_map_right_iff (R := Eq), List.forall₂_eq_eq_eq]

lemma givesOnce_iff {names : List String} {fields : Fields} :
    fields.givesOnce names = true ↔ ∀ name ∈ names, (fields.map (·.1)).count name ≤ 1 := by
  have hcount : ∀ name, fields.countP (fun f => f.1 = name) = (fields.map (·.1)).count name := by
    intro name
    rw [List.count, List.countP_map]
    rfl
  simp only [Fields.givesOnce, List.all_eq_true, decide_eq_true_iff, hcount]

/-- **A record is read from what gives its fields.** -/
theorem record?_eq_some {names : List String} {j : Json} {fields : Fields} :
    record? names j = some fields ↔ Gives names j fields := by
  constructor
  · intro h
    unfold record? at h
    split at h
    · obtain ⟨given, hmembers, h⟩ := Option.bind_eq_some_iff.1 h
      split_ifs at h with honce
      cases h
      rw [namedMembers?_eq_some.1 hmembers]
      exact .object (givesOnce_iff.1 honce)
    · split_ifs at h with hshort
      cases h
      exact .array hshort
    · cases h
  · rintro (once | short)
    · simp only [Json.ofMembers, record?, namedMembers?_eq_some.2 rfl, Option.bind_some,
        givesOnce_iff.2 once, if_true]
    · exact if_pos short

/-- Reading a record is finding its fields and reading each. -/
lemma record_eq_some {α : Type} {names : List String} {read : Fields → Option α}
    {GivenBy : Fields → Prop} {a : α} (hnames : names.Nodup)
    (hread : ∀ fields : Fields, (∀ name ∈ names, (fields.map (·.1)).count name ≤ 1) →
      (read fields = some a ↔ GivenBy fields)) :
    (record? names j).bind read = some a ↔ ∃ fields, Gives names j fields ∧ GivenBy fields := by
  simp only [Option.bind_eq_some_iff, record?_eq_some]
  refine exists_congr fun fields => and_congr_right fun hgives => ?_
  exact hread fields fun _ hname => hgives.once hnames hname

/-- A record is never spelled `null`. -/
lemma not_gives_null {names : List String} {fields : Fields} : ¬ Gives names .null fields :=
  nofun

/-- The members that are written give every field once. -/
lemma gives_ofMembers {names : List String} {fields : Fields}
    (hnames : fields.map (·.1) = names) (hnodup : names.Nodup) :
    Gives names (.ofMembers fields) fields := by
  subst hnames
  exact .object fun name _ => List.nodup_iff_count.1 hnodup name

/-! ## Wrapped and named values -/

/-- A wrapped value is spelled as the value itself. -/
lemma wrapped_eq_some {α β : Type} [Coded α] [Spelled α] (wrap : α → β) (unwrap : β → α) {b : β}
    (hwrap : ∀ a, unwrap (wrap a) = a) (hunwrap : wrap (unwrap b) = b) :
    (decode? j).map wrap = some b ↔ Spells j (unwrap b) := by
  rw [← Spelled.decode?_eq_some, Option.map_eq_some_iff]
  constructor
  · rintro ⟨a, ha, rfl⟩
    rw [ha, hwrap]
  · exact fun h => ⟨_, h, hunwrap⟩

/-- The value names an alternative: by a string, or by the only member of an object. -/
def Names (j : Json) (name : String) : Prop :=
  j = text name ∨ j = .ofMembers [(name, .null)]

lemma alternativeName?_eq_some {name : String} :
    alternativeName? j = some name ↔ Names j name := by
  constructor
  · intro h
    unfold alternativeName? at h
    split at h
    · subst h
      exact .inl rfl
    · subst h
      exact .inr rfl
    · cases h
  · rintro (rfl | rfl)
    · rfl
    · rfl

/-- An alternative is read from what names it. -/
lemma alternative_eq_some {α : Type} {name : α → String} {ofName? : String → Option α} {a : α}
    (hname : ofName? (name a) = some a) (honly : ∀ s, ofName? s = some a → s = name a) :
    (alternativeName? j).bind ofName? = some a ↔ Names j (name a) := by
  rw [← alternativeName?_eq_some, Option.bind_eq_some_iff]
  constructor
  · rintro ⟨s, hs, hread⟩
    rw [hs, honly s hread]
  · exact fun h => ⟨_, h, hname⟩

end Json

open Json

/-! ## Identifiers, eligibility and hours -/

instance : Spelled CourseId where
  Spells j c := Spells j c.number
  decode?_eq_some := wrapped_eq_some CourseId.mk CourseId.number (fun _ => rfl) rfl
  spells_encode c := Spelled.spells_encode c.number

instance : Spelled GroupId where
  Spells j g := Spells j g.number
  decode?_eq_some := wrapped_eq_some GroupId.mk GroupId.number (fun _ => rfl) rfl
  spells_encode g := Spelled.spells_encode g.number

instance : Spelled DepartmentId where
  Spells j d := Spells j d.number
  decode?_eq_some := wrapped_eq_some DepartmentId.mk DepartmentId.number (fun _ => rfl) rfl
  spells_encode d := Spelled.spells_encode d.number

instance : Spelled StudentId where
  Spells j s := Spells j s.number
  decode?_eq_some := wrapped_eq_some StudentId.mk StudentId.number (fun _ => rfl) rfl
  spells_encode s := Spelled.spells_encode s.number

instance : Spelled Gender where
  Spells j g := Names j g.name
  decode?_eq_some {_ g} := alternative_eq_some g.ofName?_name fun s h => by
    unfold Gender.ofName? at h
    split_ifs at h with hmale hfemale
    · cases h
      exact hmale
    · cases h
      exact hfemale
  spells_encode _ := .inl rfl

instance : Spelled GenderLock where
  Spells j l := Names j l.name
  decode?_eq_some {_ l} := alternative_eq_some l.ofName?_name fun s h => by
    unfold GenderLock.ofName? at h
    split_ifs at h with hunlocked hmale hfemale
    · cases h
      exact hunlocked
    · cases h
      exact hmale
    · cases h
      exact hfemale
  spells_encode _ := .inl rfl

/-- No name names two days, whatever its case. -/
lemma Weekday.ofName?_eq_some {name : String} {d : Weekday} :
    ofName? name = some d ↔ d.isNamed name = true := by
  constructor
  · intro h
    unfold ofName? at h
    have hnamed := List.find?_some h
    exact hnamed
  · intro h
    rw [isNamed, Bool.or_eq_true, decide_eq_true_iff, decide_eq_true_iff] at h
    unfold ofName? isNamed
    rcases h with h | h <;> rw [h] <;> cases d <;> decide +kernel

/-- A weekday is spelled by a string that names it. -/
instance : Spelled Weekday where
  Spells j d := ∃ name, j = text name ∧ d.isNamed name = true
  decode?_eq_some {j d} := by
    constructor
    · intro h
      simp only [decode?] at h
      split at h
      · exact ⟨_, rfl, Weekday.ofName?_eq_some.1 h⟩
      · cases h
    · rintro ⟨name, rfl, h⟩
      exact Weekday.ofName?_eq_some.2 h
  spells_encode d := ⟨_, rfl, Weekday.ofName?_eq_some.1 d.ofName?_shortName⟩

/-- What the fields of written hours give. -/
structure Hours.GivenBy (fields : Fields) (h : Hours) : Prop where
  days : fields.Gives "days" h.days
  start : fields.Gives "start_minute" h.start
  finish : fields.Gives "end_minute" h.finish

instance : Spelled Hours where
  Spells j h := ∃ fields, Gives Hours.fieldNames j fields ∧ h.GivenBy fields
  decode?_eq_some := record_eq_some (by decide) fun fields once => by
    simp (disch := exact once _ (by decide)) only [↓Fields.required_bind, Option.pure_def,
      Option.some.injEq]
    constructor
    · rintro ⟨_, hdays, _, hstart, _, hfinish, rfl⟩
      exact ⟨hdays, hstart, hfinish⟩
    · rintro ⟨hdays, hstart, hfinish⟩
      exact ⟨_, hdays, _, hstart, _, hfinish, rfl⟩
  spells_encode h :=
    ⟨_, gives_ofMembers rfl (by decide), .of_mem (by simp), .of_mem (by simp), .of_mem (by simp)⟩

instance : NeverNull Hours := ⟨fun _ ⟨_, hgives, _⟩ => not_gives_null hgives⟩

/-! ## Snapshots -/

/-- The fields of a written key give its course and its group. -/
structure SectionKey.GivenBy (fields : Fields) (k : SectionKey) : Prop where
  course : fields.Gives "course_id" k.course
  group : fields.Gives "group_id" k.group

instance : Spelled SectionKey where
  Spells j k := ∃ fields, Gives SectionKey.fieldNames j fields ∧ k.GivenBy fields
  decode?_eq_some := record_eq_some (by decide) fun fields once => by
    simp (disch := exact once _ (by decide)) only [↓Fields.required_bind, Option.pure_def,
      Option.some.injEq]
    constructor
    · rintro ⟨_, hcourse, _, hgroup, rfl⟩
      exact ⟨hcourse, hgroup⟩
    · rintro ⟨hcourse, hgroup⟩
      exact ⟨_, hcourse, _, hgroup, rfl⟩
  spells_encode k := ⟨_, gives_ofMembers rfl (by decide), .of_mem (by simp), .of_mem (by simp)⟩

namespace Snapshot

/-- The fields of a stored department give its identifier and its name. -/
structure StoredDepartment.GivenBy (fields : Fields) (d : StoredDepartment) : Prop where
  id : fields.Gives "id" d.id
  name : fields.Gives "name" d.name

instance : Spelled StoredDepartment where
  Spells j d := ∃ fields, Gives StoredDepartment.fieldNames j fields ∧ d.GivenBy fields
  decode?_eq_some := record_eq_some (by decide) fun fields once => by
    simp (disch := exact once _ (by decide)) only [↓Fields.required_bind, Option.pure_def,
      Option.some.injEq]
    constructor
    · rintro ⟨_, hid, _, hname, rfl⟩
      exact ⟨hid, hname⟩
    · rintro ⟨hid, hname⟩
      exact ⟨_, hid, _, hname, rfl⟩
  spells_encode d := ⟨_, gives_ofMembers rfl (by decide), .of_mem (by simp), .of_mem (by simp)⟩

/-- The fields of a stored section give its parts; six of them may be left out. -/
structure StoredSection.GivenBy (fields : Fields) (s : StoredSection) : Prop where
  course : fields.Gives "course_id" s.key.course
  group : fields.Gives "group_id" s.key.group
  department : fields.Gives "department" s.department
  lecturer : fields.GivesOr "lecturer" "" s.lecturer
  units : fields.Gives "units" s.units
  capacity : fields.Gives "capacity" s.capacity
  reserve : fields.GivesOr "reserve_capacity" 0 s.reserve
  examTime : fields.GivesOr "exam_time" none s.examTime
  hours : fields.GivesOr "schedule" none s.hours
  lock : fields.GivesOr "gender_lock" .unlocked s.lock
  students : fields.GivesOr "students" [] s.students

instance : Spelled StoredSection where
  Spells j s := ∃ fields, Gives StoredSection.fieldNames j fields ∧ s.GivenBy fields
  decode?_eq_some := record_eq_some (by decide) fun fields once => by
    simp (disch := exact once _ (by decide)) only [↓Fields.required_bind, ↓Fields.optional_bind,
      Option.pure_def, Option.some.injEq]
    constructor
    · rintro ⟨_, hcourse, _, hgroup, _, hdepartment, _, hlecturer, _, hunits, _, hcapacity,
        _, hreserve, _, hexam, _, hhours, _, hlock, _, hstudents, rfl⟩
      exact ⟨hcourse, hgroup, hdepartment, hlecturer, hunits, hcapacity, hreserve, hexam, hhours,
        hlock, hstudents⟩
    · rintro ⟨hcourse, hgroup, hdepartment, hlecturer, hunits, hcapacity, hreserve, hexam, hhours,
        hlock, hstudents⟩
      exact ⟨_, hcourse, _, hgroup, _, hdepartment, _, hlecturer, _, hunits, _, hcapacity,
        _, hreserve, _, hexam, _, hhours, _, hlock, _, hstudents, rfl⟩
  spells_encode s := by
    refine ⟨_, gives_ofMembers rfl (by decide), ?_⟩
    constructor
    case course => exact .of_mem (by simp)
    case group => exact .of_mem (by simp)
    case department => exact .of_mem (by simp)
    case units => exact .of_mem (by simp)
    case capacity => exact .of_mem (by simp)
    all_goals exact .inl (.of_mem (by simp))

/-- The fields of a stored student give its parts; the courses may be left out. -/
structure StoredStudent.GivenBy (fields : Fields) (s : StoredStudent) : Prop where
  id : fields.Gives "id" s.id
  windowStart : fields.Gives "enrollment_start" s.windowStart
  maxUnits : fields.Gives "max_units" s.maxUnits
  actions : fields.Gives "remaining_actions" s.actions
  gender : fields.Gives "gender" s.gender
  courses : fields.GivesOr "courses" [] s.courses

instance : Spelled StoredStudent where
  Spells j s := ∃ fields, Gives StoredStudent.fieldNames j fields ∧ s.GivenBy fields
  decode?_eq_some := record_eq_some (by decide) fun fields once => by
    simp (disch := exact once _ (by decide)) only [↓Fields.required_bind, ↓Fields.optional_bind,
      Option.pure_def, Option.some.injEq]
    constructor
    · rintro ⟨_, hid, _, hstart, _, hunits, _, hactions, _, hgender, _, hcourses, rfl⟩
      exact ⟨hid, hstart, hunits, hactions, hgender, hcourses⟩
    · rintro ⟨hid, hstart, hunits, hactions, hgender, hcourses⟩
      exact ⟨_, hid, _, hstart, _, hunits, _, hactions, _, hgender, _, hcourses, rfl⟩
  spells_encode s := by
    refine ⟨_, gives_ofMembers rfl (by decide), ?_⟩
    constructor
    case courses => exact .inl (.of_mem (by simp))
    all_goals exact .of_mem (by simp)

/-- The fields of a stored snapshot give its lists; each may be left out. -/
structure GivenBy (fields : Fields) (s : Snapshot) : Prop where
  departments : fields.GivesOr "departments" [] s.departments
  sections : fields.GivesOr "sections" [] s.sections
  students : fields.GivesOr "students" [] s.students

instance : Spelled Snapshot where
  Spells j s := ∃ fields, Gives fieldNames j fields ∧ s.GivenBy fields
  decode?_eq_some := record_eq_some (by decide) fun fields once => by
    simp (disch := exact once _ (by decide)) only [↓Fields.optional_bind, Option.pure_def,
      Option.some.injEq]
    constructor
    · rintro ⟨_, hdepartments, _, hsections, _, hstudents, rfl⟩
      exact ⟨hdepartments, hsections, hstudents⟩
    · rintro ⟨hdepartments, hsections, hstudents⟩
      exact ⟨_, hdepartments, _, hsections, _, hstudents, rfl⟩
  spells_encode s :=
    ⟨_, gives_ofMembers rfl (by decide), .inl (.of_mem (by simp)), .inl (.of_mem (by simp)),
      .inl (.of_mem (by simp))⟩

variable {s : Snapshot} {text : String}

/-- A text holds a snapshot if the JSON value that it denotes spells the snapshot. -/
lemma ofText?_eq_some : ofText? text = some s ↔ ∃ j, read? text = some j ∧ Spells j s := by
  simp only [ofText?, Option.bind_eq_some_iff, Spelled.decode?_eq_some]

lemma ofText?_toText (s : Snapshot) : ofText? s.toText = some s := by
  rw [ofText?, toText, read?_toText, Option.bind_some, decode?_encode]

/-- **Snapshots survive being written.**  The text of a snapshot holds that snapshot; what any text
holds is what its rewritten text holds; and a text holds a snapshot exactly if its JSON value spells
the snapshot, with the members of each record in any order, absent or written defaults, other
members among them, or with an array for the record. -/
theorem text_round_trip (s : Snapshot) (text : String) :
    ofText? s.toText = some s ∧
      ((ofText? text).bind fun held => ofText? held.toText) = ofText? text ∧
      (ofText? text = some s ↔ ∃ j, read? text = some j ∧ Spells j s) := by
  refine ⟨ofText?_toText s, ?_, ofText?_eq_some⟩
  cases ofText? text with
  | none => rfl
  | some held => exact ofText?_toText held

end Snapshot

end CourseRegistration
