import Mathlib.Tactic.Common

namespace Guard

variable {ε α β γ : Type}

/-- Fail with `e` unless `p` holds. -/
def require (p : Prop) [Decidable p] (e : ε) : Except ε Unit :=
  if p then .ok () else .error e

/-- The value of an option, or the given error when there is none. -/
def okOr (o : Option α) (e : ε) : Except ε α :=
  match o with
  | some a => .ok a
  | none => .error e

@[simp] theorem require_eq_ok {p : Prop} [Decidable p] {e : ε} {u : Unit} :
    require p e = .ok u ↔ p := by
  unfold require
  split <;> simp_all

@[simp] theorem okOr_eq_ok {o : Option α} {e : ε} {a : α} : okOr o e = .ok a ↔ o = some a := by
  cases o <;> simp [okOr]

/-- A sequence of two fallible steps succeeds when both do. -/
@[simp] theorem bind_eq_ok {x : Except ε α} {f : α → Except ε β} {b : β} :
    (x >>= f) = .ok b ↔ ∃ a, x = .ok a ∧ f a = .ok b := by
  cases x <;> simp [bind, Except.bind]

@[simp] theorem pure_eq_ok {a b : α} : (pure a : Except ε α) = .ok b ↔ a = b := by
  simp [pure, Except.pure]

@[simp] theorem require_eq_error {p : Prop} [Decidable p] {e e' : ε} : require p e = .error e' ↔ ¬p ∧ e = e' := by
  unfold require
  split <;> simp_all

@[simp] theorem okOr_eq_error {o : Option α} {e e' : ε} : okOr o e = .error e' ↔ o = none ∧ e = e' := by
  cases o <;> simp [okOr]

/-- A sequence fails with its first step, or after it. -/
@[simp] theorem bind_eq_error {x : Except ε α} {f : α → Except ε β} {e : ε} :
    (x >>= f) = .error e ↔ x = .error e ∨ ∃ a, x = .ok a ∧ f a = .error e := by
  cases x <;> simp [bind, Except.bind]

@[simp] theorem pure_ne_error {a : α} {e : ε} : (pure a : Except ε α) ≠ .error e := by
  rintro ⟨⟩

theorem require_pos {p : Prop} [Decidable p] (holds : p) (e : ε) : require p e = .ok () := if_pos holds

theorem require_neg {p : Prop} [Decidable p] (fails : ¬p) (e : ε) : require p e = .error e := if_neg fails

theorem require_congr {p q : Prop} [Decidable p] [Decidable q] (same : p ↔ q) (e : ε) : require p e = require q e := by
  unfold require
  simp only [same]

theorem okOr_some (a : α) (e : ε) : okOr (some a) e = .ok a := rfl

theorem okOr_none (e : ε) : okOr (none : Option α) e = .error e := rfl

theorem ok_bind (a : α) (f : α → Except ε β) : (Except.ok a >>= f) = f a := rfl

theorem error_bind (e : ε) (f : α → Except ε β) : (Except.error e >>= f) = .error e := rfl

theorem mapped_bind (g : β → γ) (x : Except ε α) (f : α → Except ε β) :
    (x >>= f).map g = x >>= fun a => (f a).map g := by
  cases x with
  | ok a => rfl
  | error e => rfl

theorem bind_mapped (g : α → β) (x : Except ε α) (f : β → Except ε γ) : x.map g >>= f = x >>= fun a => f (g a) := by
  cases x with
  | ok a => rfl
  | error e => rfl

theorem mapped_pure (g : α → β) (a : α) : (pure a : Except ε α).map g = pure (g a) := rfl

theorem bind_same_of_ok {x : Except ε α} {f g : α → Except ε β} (same : ∀ a, x = .ok a → f a = g a) :
    x >>= f = x >>= g := by
  cases x with
  | ok a => exact same a rfl
  | error e => rfl

theorem bind_same {x : Except ε α} {f g : α → Except ε β} (same : ∀ a, f a = g a) : x >>= f = x >>= g :=
  bind_same_of_ok fun a _ => same a

/-- Every error a computation can end with satisfies `P`. -/
def FailsWith (P : ε → Prop) (x : Except ε α) : Prop := ∀ e, x = .error e → P e

section FailsWith
variable {P Q : ε → Prop}

theorem FailsWith.ok (a : α) : FailsWith P (.ok a) := by
  rintro _ ⟨⟩

theorem FailsWith.pure (a : α) : FailsWith P (Pure.pure a) := FailsWith.ok a

theorem FailsWith.error {e : ε} (allowed : P e) : FailsWith P (.error e : Except ε α) := by
  rintro _ ⟨⟩
  exact allowed

theorem FailsWith.weaken {x : Except ε α} (fails : FailsWith P x) (wider : ∀ e, P e → Q e) : FailsWith Q x :=
  fun e is => wider e (fails e is)

theorem FailsWith.require {p : Prop} [Decidable p] {e : ε} (allowed : ¬p → P e) :
    FailsWith P (Guard.require p e) := by
  unfold Guard.require
  split
  · exact .ok ()
  · rename_i refused
    exact .error (allowed refused)

theorem FailsWith.okOr {o : Option α} {e : ε} (allowed : o = none → P e) : FailsWith P (Guard.okOr o e) := by
  cases o with
  | some a => exact .ok a
  | none => exact .error (allowed rfl)

/-- A sequence fails with an error of its first step, or of the rest after it. -/
theorem FailsWith.bind {x : Except ε α} {f : α → Except ε β} (first : FailsWith P x)
    (rest : ∀ a, x = .ok a → FailsWith P (f a)) : FailsWith P (x >>= f) := by
  cases x with
  | ok a => exact rest a rfl
  | error e => exact .error (first e rfl)

end FailsWith

/-- Integer operations that fail outside the range of their machine type. -/
def checkedAdd (max a b : Nat) : Option Nat := if a + b ≤ max then some (a + b) else none

def checkedSub (a b : Nat) : Option Nat := if b ≤ a then some (a - b) else none

def checkedMul (max a b : Nat) : Option Nat := if a * b ≤ max then some (a * b) else none

def checkedDiv (a b : Nat) : Option Nat := if b = 0 then none else some (a / b)

def tryFrom (max a : Nat) : Option Nat := if a ≤ max then some a else none

@[simp] theorem checkedAdd_eq_some {max a b c : Nat} :
    checkedAdd max a b = some c ↔ a + b ≤ max ∧ a + b = c := by
  simp [checkedAdd]

theorem checkedAdd_eq_none {max a b : Nat} : checkedAdd max a b = none ↔ max < a + b := by
  simp [checkedAdd]

@[simp] theorem checkedSub_eq_some {a b c : Nat} :
    checkedSub a b = some c ↔ b ≤ a ∧ a - b = c := by
  simp [checkedSub]

theorem checkedSub_eq_none {a b : Nat} : checkedSub a b = none ↔ a < b := by
  simp [checkedSub]

@[simp] theorem checkedMul_eq_some {max a b c : Nat} :
    checkedMul max a b = some c ↔ a * b ≤ max ∧ a * b = c := by
  simp [checkedMul]

@[simp] theorem checkedDiv_eq_some {a b c : Nat} :
    checkedDiv a b = some c ↔ b ≠ 0 ∧ a / b = c := by
  simp [checkedDiv]

@[simp] theorem tryFrom_eq_some {max a b : Nat} : tryFrom max a = some b ↔ a ≤ max ∧ a = b := by
  simp [tryFrom]

theorem okOr_tryFrom (max a : Nat) (e : ε) :
    okOr (tryFrom max a) e = if max < a then .error e else .ok a := by
  unfold tryFrom
  split
  · rename_i fits
    rw [if_neg (Nat.not_lt.mpr fits), okOr_some]
  · rename_i wide
    rw [if_pos (Nat.lt_of_not_le wide), okOr_none]

end Guard
