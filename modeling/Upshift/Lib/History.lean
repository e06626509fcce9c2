import Mathlib.Order.Basic
import Mathlib.Tactic.Common

namespace History

variable {σ ι : Type}

/-- Executions of a labelled transition relation. The history lists each state
with the label taken from it, the most recent one first. -/
inductive Run (step : σ → ι → σ → Prop) (s : σ) : List (σ × ι) → σ → Prop
  | start : Run step s [] s
  | next {history t i u} : Run step s history t → step t i u → Run step s ((t, i) :: history) u

variable {step : σ → ι → σ → Prop} {s t u : σ} {history later earlier : List (σ × ι)}

/-- A state that some execution leads to from an initial state. -/
def Reachable (step : σ → ι → σ → Prop) (initial : σ → Prop) (t : σ) : Prop :=
  ∃ s history, initial s ∧ Run step s history t

/-- A property kept by each step holds at the end of every run it held at the start of. -/
theorem Run.invariant {I : σ → Prop} (run : Run step s history t) (start : I s)
    (kept : ∀ t i u, I t → step t i u → I u) : I t := by
  induction run with
  | start => exact start
  | next _ taken ih => exact kept _ _ _ ih taken

theorem Reachable.next {initial : σ → Prop} {i : ι} (reach : Reachable step initial t)
    (taken : step t i u) : Reachable step initial u := by
  obtain ⟨s, history, first, run⟩ := reach
  exact ⟨s, _, first, .next run taken⟩

/-- An invariant may rest on what is already known of every reachable state. -/
theorem Reachable.invariant {initial I : σ → Prop} (reach : Reachable step initial t)
    (start : ∀ s, initial s → I s)
    (kept : ∀ t i u, Reachable step initial t → I t → step t i u → I u) : I t := by
  obtain ⟨s, history, first, run⟩ := reach
  induction run with
  | start => exact start s first
  | next previous taken ih => exact kept _ _ _ ⟨s, _, first, previous⟩ ih taken

theorem Reachable.extend {initial : σ → Prop} (reach : Reachable step initial t)
    (run : Run step t history u) : Reachable step initial u :=
  run.invariant reach fun _ _ _ before taken => before.next taken

/-- A measure that no allowed step lowers is no lower at the end of a run of allowed steps. -/
theorem Run.measure_le {α : Type} [Preorder α] {f : σ → α} {I : σ → Prop} {allowed : σ → ι → Prop}
    (run : Run step s history t) (start : I s) (kept : ∀ t i u, I t → step t i u → I u)
    (every : ∀ event ∈ history, allowed event.1 event.2)
    (grows : ∀ t i u, I t → step t i u → allowed t i → f t ≤ f u) : f s ≤ f t := by
  induction run with
  | start => exact le_rfl
  | @next history t i u previous taken ih =>
    have before := previous.invariant start kept
    have prior := ih fun event member => every event (List.mem_cons_of_mem _ member)
    exact prior.trans (grows t i u before taken (every (t, i) (List.mem_cons_self ..)))

/-- Each event of a run splits it into the run that led there, the step, and the rest. -/
theorem Run.split {i : ι} (run : Run step s (later ++ (t, i) :: earlier) u) :
    ∃ after, Run step s earlier t ∧ step t i after ∧ Run step after later u := by
  induction later generalizing u with
  | nil =>
    cases run with
    | next previous taken => exact ⟨u, previous, taken, .start⟩
  | cons event later ih =>
    cases run with
    | next previous taken =>
      obtain ⟨after, first, middle, last⟩ := ih previous
      exact ⟨after, first, middle, .next last taken⟩

/-- Each event of a run is a step from the state that an earlier part of the run leads to. -/
theorem Run.at_event (run : Run step s history u) {event : σ × ι} (member : event ∈ history) :
    ∃ earlier after, event :: earlier <:+ history ∧ Run step s earlier event.1 ∧ step event.1 event.2 after := by
  obtain ⟨later, earlier, rfl⟩ := List.append_of_mem member
  obtain ⟨after, before, taken, _⟩ := run.split
  exact ⟨earlier, after, List.suffix_append .., before, taken⟩

/-- A run that loses a property loses it in one of its steps. -/
theorem Run.turn (P : σ → Prop) (run : Run step s history t) (start : P s) (lost : ¬P t) :
    ∃ later u i earlier after, history = later ++ (u, i) :: earlier ∧ Run step s earlier u ∧ step u i after ∧
      P u ∧ ¬P after := by
  induction run with
  | start => exact absurd start lost
  | @next history t i u previous taken ih =>
    by_cases holds : P t
    · exact ⟨[], t, i, history, u, rfl, previous, taken, holds, lost⟩
    · obtain ⟨later, s', i', earlier, after, rfl, before, turns, holds', lost'⟩ := ih holds
      exact ⟨(t, i) :: later, s', i', earlier, after, rfl, before, turns, holds', lost'⟩

theorem Run.trans (first : Run step s earlier t) (second : Run step t later u) :
    Run step s (later ++ earlier) u := by
  induction second with
  | start => exact first
  | next _ taken ih => exact .next ih taken

/-- A run, seen through a projection that makes each step one of another machine. -/
theorem Run.simulate {τ : Type} {step' : τ → ι → τ → Prop} (f : σ → τ) (run : Run step s history t)
    (simulates : ∀ t i u, step t i u → step' (f t) i (f u)) :
    Run step' (f s) (history.map fun event => (f event.1, event.2)) (f t) := by
  induction run with
  | start => exact .start
  | next _ taken ih => exact .next ih (simulates _ _ _ taken)

/-- An aspect that no step of some kind changes is at the end of a run of such steps what it was at the start. -/
theorem Run.constant {α : Type} {f : σ → α} {A : ι → Prop} (run : Run step s history t)
    (every : ∀ event ∈ history, A event.2) (same : ∀ t i u, step t i u → A i → f u = f t) : f t = f s := by
  induction run with
  | start => rfl
  | next _ taken ih =>
    have earlier := ih fun event member => every event (List.mem_cons_of_mem _ member)
    exact (same _ _ _ taken (every _ List.mem_cons_self)).trans earlier

/-- A label that needs a property missing and sets it for good is taken at most once. -/
theorem Run.at_most_once {P : σ → Prop} {B : ι → Bool} (run : Run step s history t)
    (stays : ∀ t i u, step t i u → P t → P u) (sets : ∀ t i u, step t i u → B i = true → ¬P t ∧ P u) :
    (history.countP fun event => B event.2) ≤ 1 ∧ (¬P t → (history.countP fun event => B event.2) = 0) := by
  induction run with
  | start => exact ⟨Nat.zero_le 1, fun _ => rfl⟩
  | @next history t i u previous taken ih =>
    obtain ⟨once, never⟩ := ih
    cases label : B i with
    | false =>
      rw [List.countP_cons_of_neg (by simp only [label, Bool.false_eq_true, not_false_eq_true])]
      exact ⟨once, fun missing => never fun had => missing (stays t i u taken had)⟩
    | true =>
      obtain ⟨missing, set⟩ := sets t i u taken label
      rw [List.countP_cons_of_pos (by simp only [label]), never missing]
      exact ⟨Nat.le_refl 1, fun lost => absurd set lost⟩

/-- A history without a label of some kind, or the latest of that kind. -/
theorem latest (B : ι → Prop) (history : List (σ × ι)) :
    (∀ event ∈ history, ¬B event.2) ∨ ∃ later t i earlier, history = later ++ (t, i) :: earlier ∧ B i ∧
      ∀ event ∈ later, ¬B event.2 := by
  induction history with
  | nil => exact Or.inl fun event member => by cases member
  | cons event history ih =>
    by_cases here : B event.2
    · exact Or.inr ⟨[], event.1, event.2, history, rfl, here, fun event member => by cases member⟩
    · rcases ih with no | ⟨later, t, i, earlier, rfl, found, newer⟩
      · exact Or.inl (List.forall_mem_cons.mpr ⟨here, no⟩)
      · exact Or.inr ⟨event :: later, t, i, earlier, rfl, found, List.forall_mem_cons.mpr ⟨here, newer⟩⟩

end History
