import Upshift.Lib.Guard

namespace InPlace

variable {ε σ ρ α β : Type}

/-- A method of a value it can change. What it wrote before an error stays written. -/
abbrev Method (ε σ α : Type) := ExceptT ε (StateM σ) α

/-- What a call returns, and the value after it. -/
def Method.call (m : Method ε σ α) (s : σ) : Except ε α × σ := StateT.run (ExceptT.run m) s

/-- A fallible computation on the value. -/
def compute (f : σ → Except ε α) : Method ε σ α := ExceptT.mk fun s => pure (f s, s)

def assign (f : σ → σ) : Method ε σ Unit := modify f

/-- A call returns what a pure function of the old value does, and changes the value only if that succeeds. -/
def Atomic (m : Method ε σ α) (s : σ) (outcome : Except ε ρ) (split : ρ → α × σ) : Prop :=
  m.call s = match outcome with
    | .ok x => (.ok (split x).1, (split x).2)
    | .error e => (.error e, s)

/-- A call that cannot fail. -/
def Writes (m : Method ε σ α) (s : σ) (a : α) (s' : σ) : Prop := m.call s = (.ok a, s')

section Rules
variable {s s' : σ} {a : α} {m : Method ε σ α}

theorem Method.call_bind (m : Method ε σ β) (k : β → Method ε σ α) (s : σ) : (m >>= k).call s =
    match m.call s with
    | (.ok b, s') => (k b).call s'
    | (.error e, s') => (.error e, s') := by
  have unfolded : (m >>= k).call s = ExceptT.bindCont k (m.call s).1 (m.call s).2 := rfl
  rw [unfolded]
  rcases m.call s with ⟨_ | _, _⟩
  · rfl
  · rfl

theorem Writes.pure (a : α) (s : σ) : Writes (Pure.pure a : Method ε σ α) s a s := rfl

theorem Writes.assign {f : σ → σ} {k : Unit → Method ε σ α} (rest : Writes (k ()) (f s) a s') :
    Writes (assign f >>= k) s a s' := rest

theorem Writes.atomic {x : ρ} {split : ρ → α × σ} (writes : Writes m s (split x).1 (split x).2) :
    Atomic m s (.ok x) split := writes

/-- Computing before writing is what makes a method atomic. -/
theorem Atomic.compute {f : σ → Except ε β} {k : β → Method ε σ α} {rest : β → Except ε ρ} {split : ρ → α × σ}
    (later : ∀ b, f s = .ok b → Atomic (k b) s (rest b) split) : Atomic (compute f >>= k) s (f s >>= rest) split := by
  have first : (InPlace.compute f).call s = (f s, s) := rfl
  unfold Atomic
  rw [Method.call_bind, first]
  cases computed : f s with
  | ok b => exact later b computed
  | error e => rfl

theorem Atomic.accepted {outcome : Except ε ρ} {split : ρ → α × σ} (atomic : Atomic m s outcome split) {x : ρ}
    (ok : outcome = .ok x) : m.call s = (.ok (split x).1, (split x).2) := by
  subst ok
  exact atomic

theorem Atomic.refused {outcome : Except ε ρ} {split : ρ → α × σ} (atomic : Atomic m s outcome split) {e : ε}
    (error : outcome = .error e) : m.call s = (.error e, s) := by
  subst error
  exact atomic

end Rules

end InPlace
