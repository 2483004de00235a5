import CourseRegistration.Decision
import Mathlib.Tactic.Lemma

/-!
# What a decision comes to

Two things are known of every request.  A decision that goes through has passed each of its checks,
which the `_eq_ok` lemmas read off one check at a time; a decision that never meets an inconsistent
registry is `Faultless`, and `Faultless.bind` puts that together check by check.

Carrying changes out makes some of them, from the first on, and no others.  `carryOut_spec` says
which: the records of the changes made are taken, the record of the next one is declined, the state
is that of the last change made, and the outbox has seen exactly these offers in this order.
-/

namespace CourseRegistration

open Journal

/-! ## Decisions that go through -/

section

variable {ε α β : Type}

lemma bind_eq_ok {x : Except ε α} {f : α → Except ε β} {b : β} :
    (x >>= f) = .ok b ↔ ∃ a, x = .ok a ∧ f a = .ok b := by
  cases x with
  | error e => simp [bind, Except.bind]
  | ok a => simp [bind, Except.bind]

lemma bind_eq_error {x : Except ε α} {f : α → Except ε β} {e : ε} :
    (x >>= f) = .error e ↔ x = .error e ∨ ∃ a, x = .ok a ∧ f a = .error e := by
  cases x with
  | error e' => simp [bind, Except.bind]
  | ok a => simp [bind, Except.bind]

lemma ok_bind (a : α) (f : α → Except ε β) : (Except.ok a >>= f) = f a :=
  rfl

lemma map_eq_ok {x : Except ε α} {f : α → β} {b : β} :
    x.map f = .ok b ↔ ∃ a, x = .ok a ∧ f a = b := by
  cases x <;> simp [Except.map]

lemma pure_eq_ok {a b : α} : (pure a : Except ε α) = .ok b ↔ a = b := by
  simp [pure, Except.pure]

lemma pure_ne_error {a : α} {e : ε} : (pure a : Except ε α) ≠ .error e :=
  nofun

/-- Two decisions whose first checks agree are related if what follows is. -/
lemma bind_map_congr {γ : Type} {x x' : Except ε α} {f : α → Except ε β} {f' : α → Except ε γ}
    {g : β → γ} (hx : x' = x) (h : ∀ a, x = .ok a → f' a = (f a).map g) :
    (x' >>= f') = (x >>= f).map g := by
  subst hx
  cases x' with
  | error e => rfl
  | ok a => exact h a rfl

/-- `p` holds of every element of the list together with what `g` has made of those before it. -/
def Accepted (p : β → α → Prop) (g : β → α → β) : β → List α → Prop
  | _, [] => True
  | b, a :: rest => p b a ∧ Accepted p g (g b a) rest

/-- A fold goes through exactly if each of its steps does. -/
lemma foldlM_eq_ok_iff {f : β → α → Except ε β} {p : β → α → Prop} {g : β → α → β}
    (step : ∀ {b a b'}, f b a = .ok b' ↔ p b a ∧ b' = g b a) {l : List α} {b b' : β} :
    l.foldlM f b = .ok b' ↔ Accepted p g b l ∧ b' = l.foldl g b := by
  induction l generalizing b with
  | nil =>
    rw [List.foldlM_nil, pure_eq_ok, Accepted, true_and]
    exact eq_comm
  | cons a rest ih =>
    rw [List.foldlM_cons, bind_eq_ok, List.foldl_cons, Accepted]
    constructor
    · rintro ⟨mid, hmid, hrest⟩
      obtain ⟨hp, rfl⟩ := step.1 hmid
      obtain ⟨haccepted, hb'⟩ := ih.1 hrest
      exact ⟨⟨hp, haccepted⟩, hb'⟩
    · rintro ⟨⟨hp, haccepted⟩, hb'⟩
      exact ⟨g b a, step.2 ⟨hp, rfl⟩, ih.2 ⟨haccepted, hb'⟩⟩

/-- Where each element adds a key of its own that was not there, and matters to none with another
key, the elements can be looked at one by one. -/
lemma accepted_iff {κ : Type} (key : α → κ) (has : β → κ → Bool) {q : β → α → Prop}
    {g : β → α → β}
    (adds : ∀ b a k, has (g b a) k = true ↔ k = key a ∨ has b k = true)
    (apart : ∀ b a a', key a' ≠ key a → (q (g b a) a' ↔ q b a')) {l : List α} {b : β} :
    Accepted (fun b a => has b (key a) = false ∧ q b a) g b l ↔
      (l.map key).Nodup ∧ ∀ a ∈ l, has b (key a) = false ∧ q b a := by
  have new : ∀ {b a k}, has (g b a) k = false ↔ k ≠ key a ∧ has b k = false := by
    intro b a k
    rw [← Bool.not_eq_true, adds, not_or, Bool.not_eq_true]
  induction l generalizing b with
  | nil => exact iff_of_true trivial ⟨List.nodup_nil, fun a ha => absurd ha List.not_mem_nil⟩
  | cons a rest ih =>
    refine (and_congr_right' ih).trans ?_
    rw [List.map_cons, List.nodup_cons, List.forall_mem_cons]
    constructor
    · rintro ⟨hfirst, hnodup, hrest⟩
      have hne : ∀ a' ∈ rest, key a' ≠ key a := fun a' ha' => (new.1 (hrest a' ha').1).1
      refine ⟨⟨fun hmem => ?_, hnodup⟩, hfirst, fun a' ha' => ?_⟩
      · obtain ⟨a', ha', heq⟩ := List.mem_map.1 hmem
        exact hne a' ha' heq
      · obtain ⟨hhas, hq⟩ := hrest a' ha'
        exact ⟨(new.1 hhas).2, (apart b a a' (hne a' ha')).1 hq⟩
    · rintro ⟨⟨hfirst, hnodup⟩, ha, hrest⟩
      refine ⟨ha, hnodup, fun a' ha' => ?_⟩
      have hne : key a' ≠ key a := fun heq => hfirst (heq ▸ List.mem_map_of_mem ha')
      exact ⟨new.2 ⟨hne, (hrest a' ha').1⟩, (apart b a a' hne).2 (hrest a' ha').2⟩

end

namespace Check

variable {α β : Type}

lemma require_eq_ok {p : Bool} {cause : Failure} {u : Unit} :
    require p cause = .ok u ↔ p = true := by
  cases p <;> simp [require, fail]

lemma require_eq_error {p : Bool} {cause : Failure} {halt : Halt} :
    require p cause = .error halt ↔ p = false ∧ halt = .failed cause [] := by
  cases p <;> simp [require, fail, eq_comm]

lemma require_true {cause : Failure} : require true cause = .ok () :=
  rfl

lemma expect_eq_ok {a : Option α} {b : α} {cause : Failure} :
    expect a cause = .ok b ↔ a = some b := by
  cases a <;> simp [expect, fail]

lemma expect_eq_error {a : Option α} {cause : Failure} {halt : Halt} :
    expect a cause = .error halt ↔ a = none ∧ halt = .failed cause [] := by
  cases a <;> simp [expect, fail, eq_comm]

/-! ## Decisions without a fault -/

/-- The decision does not end with a fault of the registry. -/
def Faultless (x : Check α) : Prop :=
  ∀ what notes, x ≠ .error (.failed (.fault what) notes)

lemma Faultless.ok (a : α) : Faultless (.ok a) := by
  intro what notes h
  cases h

lemma Faultless.pure (a : α) : Faultless (Pure.pure a : Check α) :=
  .ok a

lemma Faultless.bind {x : Check α} {f : α → Check β} (hx : Faultless x)
    (hf : ∀ a, x = .ok a → Faultless (f a)) : Faultless (x >>= f) := by
  intro what notes h
  cases x with
  | error halt =>
    cases h
    exact hx what notes rfl
  | ok a => exact hf a rfl what notes h

/-- A check with a cause of another kind finds no fault, nor does what follows it. -/
lemma Faultless.require_bind {p : Bool} {cause : Failure} {f : Unit → Check β}
    (h : ∀ what, cause ≠ .fault what) (hf : p = true → Faultless (f ())) :
    Faultless (require p cause >>= f) := by
  cases p with
  | false =>
    intro what notes he
    cases he
    exact h what rfl
  | true => exact hf rfl

/-- A lookup with a cause of another kind finds no fault, nor does what follows it. -/
lemma Faultless.expect_bind {a : Option α} {cause : Failure} {f : α → Check β}
    (h : ∀ what, cause ≠ .fault what) (hf : ∀ b, a = some b → Faultless (f b)) :
    Faultless (expect a cause >>= f) := by
  cases a with
  | none =>
    intro what notes he
    cases he
    exact h what rfl
  | some b => exact hf b rfl

lemma Faultless.mapM {f : α → Check β} {as : List α} (h : ∀ a ∈ as, Faultless (f a)) :
    Faultless (as.mapM f) := by
  induction as with
  | nil => exact .ok _
  | cons a rest ih =>
    rw [List.mapM_cons]
    have hrest := ih fun b hb => h b (List.mem_cons_of_mem _ hb)
    exact (h a List.mem_cons_self).bind fun _ _ => hrest.bind fun _ _ => .pure _

end Check

/-! ## Offers -/

namespace Journal.Outbox

/-- Offers records one after the other; the replies come in the order of the offers. -/
def offerAll (cancelled : Bool) : List Record → Outbox → List Reply × Outbox
  | [], o => ([], o)
  | r :: rest, o =>
    let (reply, o') := o.offer cancelled r
    let (replies, o'') := offerAll cancelled rest o'
    (reply :: replies, o'')

end Journal.Outbox

/-- The reply that stopped the changes. -/
def Stop.reply : Stop → Reply
  | refused why => .refused why
  | pending => .pending

/-! ## Carrying out -/

namespace Change

/-- The state once the changes are made. -/
def after {σ : Type} : List (Change σ) → σ → σ
  | [], s => s
  | c :: cs, _ => after cs c.result

end Change

/-- **Changes are made from the first on, up to the first whose record is not taken.**  The state,
the records and the outbox are those of the changes made and of that one offer. -/
theorem carryOut_spec {σ : Type} (cancelled : Bool) (changes : List (Change σ)) (s : σ)
    (o : Outbox) :
    ∃ made left, changes = made ++ left ∧
      (carryOut cancelled changes s o).state = Change.after made s ∧
      (carryOut cancelled changes s o).taken = made.map (·.record) ∧
      (carryOut cancelled changes s o).declined = (left.take 1).map (·.record) ∧
      ((carryOut cancelled changes s o).stop = none ↔ left = []) ∧
      o.offerAll cancelled ((made ++ left.take 1).map (·.record)) =
        (List.replicate made.length .taken ++
          ((carryOut cancelled changes s o).stop.map Stop.reply).toList,
          (carryOut cancelled changes s o).outbox) := by
  induction changes generalizing s o with
  | nil => exact ⟨[], [], rfl, rfl, rfl, rfl, by simp [carryOut], rfl⟩
  | cons c cs ih =>
    rcases hoffer : o.offer cancelled c.record with ⟨reply, o'⟩
    cases reply with
    | taken =>
      obtain ⟨made, left, hsplit, hstate, htaken, hdeclined, hstop, hoffers⟩ := ih c.result o'
      refine ⟨c :: made, left, by rw [hsplit]; rfl, ?_, ?_, ?_, ?_, ?_⟩
      · simpa [carryOut, hoffer, Change.after] using hstate
      · simpa [carryOut, hoffer] using htaken
      · simpa [carryOut, hoffer] using hdeclined
      · simpa [carryOut, hoffer] using hstop
      · simp only [List.cons_append, List.map_cons, Outbox.offerAll, hoffer, hoffers, carryOut,
          List.length_cons, List.replicate_succ]
    | refused why =>
      refine ⟨[], c :: cs, rfl, ?_, ?_, ?_, ?_, ?_⟩ <;>
        simp [carryOut, hoffer, Change.after, Outbox.offerAll, Stop.reply]
    | pending =>
      refine ⟨[], c :: cs, rfl, ?_, ?_, ?_, ?_, ?_⟩ <;>
        simp [carryOut, hoffer, Change.after, Outbox.offerAll, Stop.reply]

/-- A single change whose record is taken is made, and no other record is offered. -/
lemma carryOut_singleton {σ : Type} {cancelled : Bool} {c : Change σ} {o : Outbox} (s : σ)
    (taken : (o.offer cancelled c.record).1 = .taken) :
    carryOut cancelled [c] s o =
      ⟨c.result, (o.offer cancelled c.record).2, [c.record], [], [c.event], none⟩ := by
  rcases hoffer : o.offer cancelled c.record with ⟨reply, outbox⟩
  rw [hoffer] at taken
  change reply = .taken at taken
  subst taken
  rw [carryOut, hoffer]
  rfl

namespace Change

/-- The state after some changes is that of one of them, or the one from before. -/
lemma after_keeps {σ : Type} {Q : σ → Prop} {changes : List (Change σ)} {s : σ} (hs : Q s)
    (h : ∀ c ∈ changes, Q c.result) : Q (after changes s) := by
  induction changes generalizing s with
  | nil => exact hs
  | cons c cs ih =>
    exact ih (h c List.mem_cons_self) fun d hd => h d (List.mem_cons_of_mem _ hd)

end Change

/-- What holds before and after each change of a plan, holds however far the plan is carried out. -/
lemma execute_keeps {σ α : Type} {Q : σ → Prop} {decision : Check (Plan σ α)} {s : σ}
    (cancelled : Bool) (o : Outbox) (hs : Q s)
    (h : ∀ plan, decision = .ok plan → ∀ c ∈ plan.changes, Q c.result) :
    Q (execute cancelled decision s o).2.1 := by
  rcases decision with (⟨cause, notes⟩ | _) | plan
  · exact hs
  · exact hs
  · obtain ⟨made, left, hsplit, hstate, -⟩ := carryOut_spec cancelled plan.changes s o
    show Q (carryOut cancelled plan.changes s o).state
    rw [hstate]
    refine Change.after_keeps hs fun c hc => h plan rfl c ?_
    rw [hsplit]
    exact List.mem_append_left _ hc

end CourseRegistration
