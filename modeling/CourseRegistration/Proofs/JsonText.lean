import CourseRegistration.Json.Reader
import CourseRegistration.Json.Writer
import Mathlib.Tactic.Lemma
import Mathlib.Tactic.SplitIfs

/-!
# JSON values that are written and read back

The text that is written for a value is read as that value (`read?_toText`), for every value: also
for numbers that no double holds and for literals that denote no text.

What is written is read piece by piece, and each piece must be seen to end where it does.  A number
does not say where it ends, so what follows matters to it: it must not go on like a number
(`Stops`).  A literal has its quotation mark, and the other values have their brackets.  The reader
is handed a number of steps that it may take; a step reads a character, so as many steps as there
are characters to read are enough.
-/

namespace CourseRegistration.Json

/-! ## Digits -/

/-- No digit comes next. -/
def NoDigit (rest : List Char) : Prop :=
  ∀ c ∈ rest.head?, c.isDigit = false

variable {rest digits : List Char}

lemma readDigits_append (hdigits : ∀ c ∈ digits, c.isDigit = true) (hne : digits ≠ [])
    (hrest : NoDigit rest) : readDigits (digits ++ rest) = some (digits, rest) := by
  have hspan : rest.takeWhile Char.isDigit = [] ∧ rest.dropWhile Char.isDigit = rest := by
    cases rest with
    | nil => exact ⟨rfl, rfl⟩
    | cons c cs =>
      have hc : c.isDigit = false := hrest c rfl
      simp [hc]
  simp [readDigits, spanDigits, List.takeWhile_append_of_pos hdigits,
    List.dropWhile_append_of_pos hdigits, hspan, hne]

lemma isDigit_of_mem_toDigits {n : Nat} : ∀ c ∈ Nat.toDigits 10 n, c.isDigit = true :=
  fun _ hc => Nat.isDigit_of_mem_toDigits (by decide) (by decide) hc

lemma readDigits_toDigits (n : Nat) (hrest : NoDigit rest) :
    readDigits (Nat.toDigits 10 n ++ rest) = some (Nat.toDigits 10 n, rest) :=
  readDigits_append isDigit_of_mem_toDigits Nat.toDigits_ne_nil hrest

lemma digitsValue_toDigits (n : Nat) : digitsValue (Nat.toDigits 10 n) = n :=
  Nat.ofDigitChars_toDigits (by decide) (by decide)

/-- The digits of a number that is not zero do not begin with zero. -/
lemma toDigits_eq_cons {n : Nat} (hn : n ≠ 0) :
    ∃ c cs, Nat.toDigits 10 n = c :: cs ∧ c ≠ '0' := by
  induction n using Nat.strongRecOn with
  | ind n ih =>
    rw [Nat.toDigits_eq_if (by decide)]
    split_ifs with hlt
    · exact ⟨_, [], rfl, fun h => hn (Nat.digitChar_eq_zero.1 h)⟩
    · obtain ⟨c, cs, hcs, hc⟩ := ih (n / 10) (by omega) (by omega)
      exact ⟨c, cs ++ [(n % 10).digitChar], by rw [hcs]; rfl, hc⟩

lemma readWhole_toDigits (n : Nat) (hrest : NoDigit rest) :
    readWhole (Nat.toDigits 10 n ++ rest) = some (Nat.toDigits 10 n, rest) := by
  by_cases hn : n = 0
  · subst hn
    rfl
  · obtain ⟨c, cs, hcs, hc⟩ := toDigits_eq_cons hn
    have hdigits := readDigits_toDigits n hrest
    rw [hcs] at hdigits ⊢
    unfold readWhole
    split
    · rename_i heq
      exact absurd (List.cons.inj heq).1 hc
    · exact hdigits

/-! ## Numbers -/

/-- What follows is not part of a number. -/
def Stops : List Char → Prop
  | [] => True
  | c :: _ => c = ',' ∨ c = ']' ∨ c = '}'

lemma Stops.noDigit (h : Stops rest) : NoDigit rest := by
  cases rest with
  | nil => exact nofun
  | cons c cs =>
    rintro _ ⟨⟩
    rcases h with rfl | rfl | rfl <;> rfl

lemma Stops.readFraction_eq (h : Stops rest) : readFraction rest = some (none, rest) := by
  cases rest with
  | nil => rfl
  | cons c cs => rcases h with rfl | rfl | rfl <;> rfl

lemma Stops.readExponent_eq (h : Stops rest) : readExponent rest = some (none, rest) := by
  cases rest with
  | nil => rfl
  | cons c cs => rcases h with rfl | rfl | rfl <;> rfl

/-- A written number begins with a digit. -/
lemma toDigits_append_eq_cons (n : Nat) (rest : List Char) :
    ∃ c cs, Nat.toDigits 10 n ++ rest = c :: cs ∧ c.isDigit = true := by
  cases hdigits : Nat.toDigits 10 n with
  | nil => exact absurd hdigits Nat.toDigits_ne_nil
  | cons c cs =>
    exact ⟨c, cs ++ rest, rfl, isDigit_of_mem_toDigits c (hdigits ▸ List.mem_cons_self)⟩

/-- A digit is no sign. -/
lemma readSign_toDigits (n : Nat) (rest : List Char) :
    readSign (Nat.toDigits 10 n ++ rest) = (false, Nat.toDigits 10 n ++ rest) := by
  obtain ⟨c, cs, heq, hc⟩ := toDigits_append_eq_cons n rest
  rw [heq]
  unfold readSign
  split
  · rename_i hsign
    rw [(List.cons.inj hsign).1] at hc
    exact absurd hc (by decide)
  · rfl

lemma readExponentSign_toDigits (n : Nat) (rest : List Char) :
    readExponentSign (Nat.toDigits 10 n ++ rest) = (false, Nat.toDigits 10 n ++ rest) := by
  obtain ⟨c, cs, heq, hc⟩ := toDigits_append_eq_cons n rest
  rw [heq]
  unfold readExponentSign
  split
  · rename_i hsign
    rw [(List.cons.inj hsign).1] at hc
    exact absurd hc (by decide)
  · rename_i hsign
    rw [(List.cons.inj hsign).1] at hc
    exact absurd hc (by decide)
  · rfl

lemma readExponent_writeInt (n : Int) (hrest : NoDigit rest) :
    readExponent ('e' :: (writeInt n ++ rest)) = some (some n, rest) := by
  cases n with
  | ofNat n =>
    simp [readExponent, writeInt, readExponentSign_toDigits, readDigits_toDigits n hrest,
      digitsValue_toDigits]
  | negSucc n =>
    simp only [readExponent, writeInt, List.cons_append, readExponentSign,
      readDigits_toDigits (n + 1) hrest, digitsValue_toDigits]
    rfl

lemma readNumber_writeInt (n : Int) (hrest : Stops rest) :
    readNumber (writeInt n ++ rest) = some (.integer n, rest) := by
  cases n with
  | ofNat n =>
    simp only [readNumber, writeInt, readSign_toDigits, readWhole_toDigits n hrest.noDigit,
      hrest.readFraction_eq, hrest.readExponent_eq, numberOf, digitsValue_toDigits]
    rfl
  | negSucc n =>
    simp only [readNumber, writeInt, List.cons_append, readSign,
      readWhole_toDigits (n + 1) hrest.noDigit, hrest.readFraction_eq, hrest.readExponent_eq,
      numberOf, digitsValue_toDigits]
    rfl

/-- **A written number is read to its end.** -/
theorem readNumber_writeNumber (n : Number) (hrest : Stops rest) :
    readNumber (writeNumber n ++ rest) = some (n, rest) := by
  cases n with
  | integer n => exact readNumber_writeInt n hrest
  | decimal negative digits exponent =>
    have hend : NoDigit ('e' :: (writeInt exponent ++ rest)) := by
      rintro _ ⟨⟩
      rfl
    have hsign : readSign (writeNumber (.decimal negative digits exponent) ++ rest) =
        (negative, Nat.toDigits 10 digits ++ 'e' :: (writeInt exponent ++ rest)) := by
      cases negative
      · simp [writeNumber, readSign_toDigits]
      · simp [writeNumber, readSign]
    have hfraction : readFraction ('e' :: (writeInt exponent ++ rest)) =
        some (none, 'e' :: (writeInt exponent ++ rest)) := rfl
    simp only [readNumber, hsign, readWhole_toDigits digits hend, hfraction,
      readExponent_writeInt exponent hrest.noDigit, numberOf, Option.getD_none, List.append_nil,
      digitsValue_toDigits, Option.getD_some, List.length_nil, Int.sub_zero, Int.natCast_zero]

/-! ## Literals -/

/-- The two last digits of an escaped control character spell it. -/
lemma hexUnit?_digitChar {n : Nat} (h : n < 0x20) :
    hexUnit? '0' '0' (Nat.digitChar (n / 16)) (Nat.digitChar (n % 16)) = some n := by
  have hall : ∀ n : Fin 0x20,
      hexUnit? '0' '0' (Nat.digitChar (n / 16)) (Nat.digitChar (n % 16)) = some n.val := by decide
  exact hall ⟨n, h⟩

/-- Neither half of a pair is a control character. -/
lemma assemble_unit_control {n : Nat} (h : n < 0x20) (pieces : List Piece) :
    assemble (.unit n :: pieces) = (assemble pieces).map (Char.ofNat n :: ·) := by
  have hlow : isLowUnit n = false := by
    rw [isLowUnit, Bool.and_eq_false_iff, decide_eq_false_iff_not]
    exact .inl (by omega)
  have hhigh : isHighUnit n = false := by
    rw [isHighUnit, Bool.and_eq_false_iff, decide_eq_false_iff_not]
    exact .inl (by omega)
  -- a unit looks at what follows it, in case that is the other half
  rcases pieces with _ | ⟨_ | _, _⟩ <;> simp [assemble, hlow, hhigh]

/-- A written character is read as one piece, which denotes the character. -/
lemma exists_piece (c : Char) : ∃ piece,
    (∀ rest, readPieces (escapeChar c ++ rest) =
      (readPieces rest).map fun p => (piece :: p.1, p.2)) ∧
    ∀ pieces, assemble (piece :: pieces) = (assemble pieces).map (c :: ·) := by
  by_cases hshort : c = '"' ∨ c = '\\' ∨ c = '\x08' ∨ c = '\x0c' ∨ c = '\n' ∨ c = '\r' ∨ c = '\t'
  · refine ⟨.char c, fun rest => ?_, fun _ => rfl⟩
    rcases hshort with rfl | rfl | rfl | rfl | rfl | rfl | rfl <;>
      cases h : readPieces rest <;> simp [escapeChar, readPieces, shortEscape?, h]
  · simp only [not_or] at hshort
    obtain ⟨hquote, hbackslash, h8, hc, hn, hr, ht⟩ := hshort
    by_cases hcontrol : c.toNat < 0x20
    · refine ⟨.unit c.toNat, fun rest => ?_, fun pieces => ?_⟩
      · cases h : readPieces rest <;>
          simp [escapeChar, hquote, hbackslash, h8, hc, hn, hr, ht, hcontrol, readPieces,
            hexUnit?_digitChar hcontrol, h]
      · rw [assemble_unit_control hcontrol, Char.ofNat_toNat]
    · refine ⟨.char c, fun rest => ?_, fun _ => rfl⟩
      cases h : readPieces rest <;>
        simp [escapeChar, hquote, hbackslash, h8, hc, hn, hr, ht, hcontrol, readPieces, h]

lemma exists_pieces (cs : List Char) : ∃ pieces,
    (∀ rest, readPieces (cs.flatMap escapeChar ++ '"' :: rest) = some (pieces, rest)) ∧
    assemble pieces = some cs := by
  induction cs with
  | nil => exact ⟨[], fun _ => rfl, rfl⟩
  | cons c cs ih =>
    obtain ⟨piece, hread, hassemble⟩ := exists_piece c
    obtain ⟨pieces, hreads, hassembles⟩ := ih
    refine ⟨piece :: pieces, fun rest => ?_, ?_⟩
    · rw [List.flatMap_cons, List.append_assoc, hread, hreads]
      rfl
    · rw [hassemble, hassembles]
      rfl

/-- **A written literal is read to its end**, after the quotation mark that opens it. -/
theorem writeLiteral_eq_cons (s : Literal) (rest : List Char) :
    ∃ cs, writeLiteral s ++ rest = '"' :: cs ∧ readLiteral cs = some (s, rest) := by
  cases s with
  | none => exact ⟨_, rfl, rfl⟩
  | some s =>
    obtain ⟨pieces, hread, hassemble⟩ := exists_pieces s.toList
    refine ⟨s.toList.flatMap escapeChar ++ '"' :: rest, ?_, ?_⟩
    · simp [writeLiteral]
    · simp [readLiteral, hread, hassemble]

/-! ## Values -/

lemma skipBlanks_cons {c : Char} (hc : isBlank c = false) (cs : List Char) :
    skipBlanks (c :: cs) = c :: cs := by
  simp [skipBlanks, hc]

lemma Stops.skipBlanks_eq (h : Stops rest) : skipBlanks rest = rest := by
  cases rest with
  | nil => rfl
  | cons c cs => rcases h with rfl | rfl | rfl <;> rfl

lemma stops_writeItems (items : List Json) (rest : List Char) :
    Stops (writeItems items ++ rest) := by
  cases items with
  | nil => exact .inr (.inl rfl)
  | cons item items => exact .inl rfl

lemma stops_writeMembers (members : List (Literal × Json)) (rest : List Char) :
    Stops (writeMembers members ++ rest) := by
  cases members with
  | nil => exact .inr (.inr rfl)
  | cons member members => exact .inl rfl

/-- What is read as a number is no other value. -/
lemma readValue_of_number {steps : Nat} {cs : List Char} {n : Number}
    (h : readNumber cs = some (n, rest)) : readValue (steps + 1) cs = some (.number n, rest) := by
  unfold readValue
  split
  case h_7 => simp only [h]
  all_goals cases h

lemma begins_of_isDigit {c : Char} (hc : c.isDigit = true) : isBlank c = false ∧ c ≠ ']' := by
  have hne : ∀ b : Char, b.isDigit = false → c ≠ b := by
    rintro b hb rfl
    rw [hc] at hb
    cases hb
  simp [isBlank, hne ' ' rfl, hne '\t' rfl, hne '\n' rfl, hne '\r' rfl, hne ']' rfl]

/-- A written number begins with its sign or with a digit. -/
lemma writeNumber_eq_cons (n : Number) :
    ∃ c cs, writeNumber n = c :: cs ∧ isBlank c = false ∧ c ≠ ']' := by
  have hdigits : ∀ (digits : Nat) (rest : List Char),
      ∃ c cs, Nat.toDigits 10 digits ++ rest = c :: cs ∧ isBlank c = false ∧ c ≠ ']' := by
    intro digits rest
    obtain ⟨c, cs, heq, hc⟩ := toDigits_append_eq_cons digits rest
    exact ⟨c, cs, heq, begins_of_isDigit hc⟩
  cases n with
  | integer n =>
    cases n with
    | ofNat n =>
      have hn := hdigits n []
      rwa [List.append_nil] at hn
    | negSucc n => exact ⟨'-', _, rfl, rfl, by decide⟩
  | decimal negative digits exponent =>
    cases negative
    · exact hdigits digits ('e' :: writeInt exponent)
    · exact ⟨'-', _, rfl, rfl, by decide⟩

/-- A written value begins with a token that does not close an array. -/
lemma write_eq_cons (j : Json) : ∃ c cs, write j = c :: cs ∧ isBlank c = false ∧ c ≠ ']' := by
  cases j with
  | null => exact ⟨'n', _, rfl, rfl, by decide⟩
  | bool b =>
    cases b
    · exact ⟨'f', _, rfl, rfl, by decide⟩
    · exact ⟨'t', _, rfl, rfl, by decide⟩
  | number n => exact writeNumber_eq_cons n
  | string s =>
    obtain ⟨cs, heq, -⟩ := writeLiteral_eq_cons s []
    exact ⟨'"', cs, by rw [← heq, List.append_nil]; rfl, rfl, by decide⟩
  | array items =>
    cases items with
    | nil => exact ⟨'[', _, rfl, rfl, by decide⟩
    | cons item items => exact ⟨'[', _, rfl, rfl, by decide⟩
  | object members =>
    cases members with
    | nil => exact ⟨'{', _, rfl, rfl, by decide⟩
    | cons member members => exact ⟨'{', _, rfl, rfl, by decide⟩

lemma skipBlanks_write (j : Json) (rest : List Char) :
    skipBlanks (write j ++ rest) = write j ++ rest := by
  obtain ⟨c, cs, heq, hblank, -⟩ := write_eq_cons j
  rw [heq]
  exact skipBlanks_cons hblank _

lemma skipBlanks_writeLiteral (s : Literal) (rest : List Char) :
    skipBlanks (writeLiteral s ++ rest) = writeLiteral s ++ rest := by
  obtain ⟨cs, heq, -⟩ := writeLiteral_eq_cons s rest
  rw [heq]
  exact skipBlanks_cons rfl cs

lemma readMember_of_value {steps : Nat} {value : Json} (hsteps : 0 < steps)
    (hvalue : readValue (steps - 1) (write value ++ rest) = some (value, rest)) (name : Literal) :
    readMember steps (writeLiteral name ++ ':' :: (write value ++ rest)) =
      some ((name, value), rest) := by
  obtain ⟨steps, rfl⟩ := Nat.exists_eq_add_one.2 hsteps
  rw [Nat.add_sub_cancel] at hvalue
  obtain ⟨cs, heq, hliteral⟩ := writeLiteral_eq_cons name (':' :: (write value ++ rest))
  have hcolon : skipBlanks (':' :: (write value ++ rest)) = ':' :: (write value ++ rest) :=
    skipBlanks_cons rfl _
  simp only [heq, readMember, hliteral, hcolon, skipBlanks_write, hvalue]

lemma readArray_of_items {steps : Nat} {item : Json} {items : List Json} {cs : List Char}
    (hitem : readValue steps (write item ++ cs) = some (item, cs)) (hcs : Stops cs)
    (hitems : readItems steps cs = some (items, rest)) :
    readValue (steps + 1) ('[' :: (write item ++ cs)) = some (.array (item :: items), rest) := by
  obtain ⟨c, tail, heq, hblank, hopen⟩ := write_eq_cons item
  have hskip : skipBlanks (write item ++ cs) = c :: (tail ++ cs) := by
    rw [skipBlanks_write, heq]
    rfl
  have hitem' : readValue steps (c :: (tail ++ cs)) = some (item, cs) := by
    rwa [heq] at hitem
  simp only [readValue, hskip]
  split
  · rename_i hclose
    exact absurd (List.cons.inj hclose).1 hopen
  · simp only [hitem', hcs.skipBlanks_eq, hitems]

lemma readObject_of_members {steps : Nat} {name : Literal} {value : Json}
    {members : List (Literal × Json)} {cs : List Char}
    (hmember : readMember steps (writeLiteral name ++ ':' :: (write value ++ cs)) =
      some ((name, value), cs)) (hcs : Stops cs)
    (hmembers : readMembers steps cs = some (members, rest)) :
    readValue (steps + 1) ('{' :: (writeLiteral name ++ ':' :: (write value ++ cs))) =
      some (.object ((name, value) :: members), rest) := by
  obtain ⟨tail, heq, -⟩ := writeLiteral_eq_cons name (':' :: (write value ++ cs))
  rw [heq] at hmember ⊢
  have hskip : skipBlanks ('"' :: tail) = '"' :: tail := skipBlanks_cons rfl tail
  simp only [readValue, hskip]
  split
  · rename_i hclose
    exact absurd (List.cons.inj hclose).1 (by decide)
  · simp only [hmember, hcs.skipBlanks_eq, hmembers]

mutual

/-- **A written value is read to its end**, in as many steps as it has characters. -/
theorem readValue_write (j : Json) {steps : Nat} {rest : List Char}
    (hsteps : (write j).length ≤ steps) (hrest : Stops rest) :
    readValue steps (write j ++ rest) = some (j, rest) := by
  cases steps with
  | zero =>
    obtain ⟨c, cs, heq, -⟩ := write_eq_cons j
    rw [heq] at hsteps
    exact absurd hsteps (Nat.not_succ_le_zero _)
  | succ steps =>
    match j with
    | .null => rfl
    | .bool true => rfl
    | .bool false => rfl
    | .number n => exact readValue_of_number (readNumber_writeNumber n hrest)
    | .string s =>
      obtain ⟨cs, heq, hliteral⟩ := writeLiteral_eq_cons s rest
      simp only [write, heq, readValue, hliteral]
    | .array [] => rfl
    | .array (item :: items) =>
      simp only [write, List.cons_append, List.append_assoc, List.length_cons, List.length_append]
        at hsteps ⊢
      have hitems : readItems steps (writeItems items ++ rest) = some (items, rest) :=
        readItems_writeItems items (by omega)
      have hitem : readValue steps (write item ++ (writeItems items ++ rest)) =
          some (item, writeItems items ++ rest) :=
        readValue_write item (by omega) (stops_writeItems items rest)
      exact readArray_of_items hitem (stops_writeItems items rest) hitems
    | .object [] => rfl
    | .object ((name, value) :: members) =>
      simp only [write, List.cons_append, List.append_assoc, List.length_cons, List.length_append]
        at hsteps ⊢
      have hmembers : readMembers steps (writeMembers members ++ rest) = some (members, rest) :=
        readMembers_writeMembers members (by omega)
      have hvalue : readValue (steps - 1) (write value ++ (writeMembers members ++ rest)) =
          some (value, writeMembers members ++ rest) :=
        readValue_write value (by omega) (stops_writeMembers members rest)
      exact readObject_of_members (readMember_of_value (by omega) hvalue name)
        (stops_writeMembers members rest) hmembers

/-- The rest of an array is read to its end. -/
theorem readItems_writeItems (items : List Json) {steps : Nat} {rest : List Char}
    (hsteps : (writeItems items).length ≤ steps) :
    readItems steps (writeItems items ++ rest) = some (items, rest) := by
  cases steps with
  | zero => cases items <;> exact absurd hsteps (Nat.not_succ_le_zero _)
  | succ steps =>
    match items with
    | [] => rfl
    | item :: items =>
      simp only [writeItems, List.cons_append, List.append_assoc, List.length_cons,
        List.length_append] at hsteps ⊢
      have hrest : readItems steps (writeItems items ++ rest) = some (items, rest) :=
        readItems_writeItems items (by omega)
      have hitem : readValue steps (write item ++ (writeItems items ++ rest)) =
          some (item, writeItems items ++ rest) :=
        readValue_write item (by omega) (stops_writeItems items rest)
      simp only [readItems, skipBlanks_write, hitem, (stops_writeItems items rest).skipBlanks_eq,
        hrest]

/-- The rest of an object is read to its end. -/
theorem readMembers_writeMembers (members : List (Literal × Json)) {steps : Nat}
    {rest : List Char} (hsteps : (writeMembers members).length ≤ steps) :
    readMembers steps (writeMembers members ++ rest) = some (members, rest) := by
  cases steps with
  | zero => cases members <;> exact absurd hsteps (Nat.not_succ_le_zero _)
  | succ steps =>
    match members with
    | [] => rfl
    | (name, value) :: members =>
      simp only [writeMembers, List.cons_append, List.append_assoc, List.length_cons,
        List.length_append] at hsteps ⊢
      have hrest : readMembers steps (writeMembers members ++ rest) = some (members, rest) :=
        readMembers_writeMembers members (by omega)
      have hvalue : readValue (steps - 1) (write value ++ (writeMembers members ++ rest)) =
          some (value, writeMembers members ++ rest) :=
        readValue_write value (by omega) (stops_writeMembers members rest)
      have hmember := readMember_of_value (by omega) hvalue name
      simp only [readMembers, skipBlanks_writeLiteral, hmember,
        (stops_writeMembers members rest).skipBlanks_eq, hrest]

end

/-- **What is written for a value is read as that value.** -/
theorem read?_toText (j : Json) : read? j.toText = some j := by
  have hread : readValue ((write j).length + 1) (write j ++ []) = some (j, []) :=
    readValue_write j (Nat.le_succ _) trivial
  have hskip : skipBlanks (write j ++ []) = write j ++ [] := skipBlanks_write j []
  rw [List.append_nil] at hread hskip
  simp only [read?, toText, String.toList_ofList, hskip, hread]
  rfl

end CourseRegistration.Json
