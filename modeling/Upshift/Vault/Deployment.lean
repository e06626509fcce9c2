import Mathlib.Tactic.Common

namespace Upshift

/-- What one vault records of its deployed principal, beside its live registry entries: how many there
are and what they owe together. -/
structure Deployment where
  count : Nat
  principal : Nat
  entries : Nat
  owed : Nat
  deriving DecidableEq

/-- The life of the deployed principal, with a registry and without one. -/
inductive Deployment.Step (D : Deployment) : Deployment → Prop
  | idle : Step D D
  | register : Step D
      ⟨D.count + 1, D.principal, D.entries + 1, D.owed + if D.count = 0 then D.principal else 0⟩
  | deregister (live : 1 ≤ D.entries) : Step D ⟨D.count - 1, D.principal, D.entries - 1, D.owed⟩
  | deploy {amount} (live : 1 ≤ D.entries) : Step D ⟨D.count, D.principal + amount, D.entries, D.owed + amount⟩
  | clear {amount} (live : 1 ≤ D.entries) (within : amount ≤ D.owed) :
      Step D ⟨D.count, D.principal - amount, D.entries, D.owed - amount⟩
  | unregistered {principal} (empty : D.count = 0) : Step D { D with principal := principal }

theorem Deployment.Step.congr {D D' D'' : Deployment} (step : D.Step D') (count : D''.count = D'.count)
    (principal : D''.principal = D'.principal) (entries : D''.entries = D'.entries) (owed : D''.owed = D'.owed) :
    D.Step D'' := by
  cases D'
  cases D''
  simp only at count principal entries owed
  subst count principal entries owed
  exact step

/-- The count is exact, and while a registry exists so is the principal. -/
structure Deployment.Exact (D : Deployment) : Prop where
  count : D.count = D.entries
  principal : 0 < D.count → D.principal = D.owed

theorem Deployment.Step.exact {D D' : Deployment} (step : D.Step D') (vacant : D.entries = 0 → D.owed = 0)
    (exact : D.Exact) : D'.Exact := by
  obtain ⟨count, principal⟩ := exact
  cases step with
  | idle => exact ⟨count, principal⟩
  | register =>
    refine ⟨congrArg (· + 1) count, fun _ => ?_⟩
    simp only
    split
    · rename_i first
      have nothing := vacant (count.symm.trans first)
      omega
    · rename_i later
      have owed := principal (Nat.pos_of_ne_zero later)
      omega
  | deregister live =>
    refine ⟨congrArg (· - 1) count, fun some => ?_⟩
    simp only at some
    exact principal (by omega)
  | deploy live =>
    have owed := principal (by omega)
    exact ⟨count, fun _ => congrArg (· + _) owed⟩
  | clear live within =>
    have owed := principal (by omega)
    exact ⟨count, fun _ => congrArg (· - _) owed⟩
  | unregistered empty =>
    refine ⟨count, fun some => ?_⟩
    simp only at some
    omega

end Upshift
