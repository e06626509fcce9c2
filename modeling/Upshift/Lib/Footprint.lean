import Mathlib.Tactic.Common
import Mathlib.Data.List.Perm.Basic

namespace Footprint

variable {σ κ ν ω ε ι : Type}

/-- Two outcomes that agree: the same error, or related states. -/
def Alike (R : σ → σ → Prop) : Except ε σ → Except ε σ → Prop
  | .ok s, .ok t => R s t
  | .error e, .error e' => e = e'
  | _, _ => False

/-- The state after a command. A refused one changes nothing. -/
def after (f : σ → Except ε σ) (s : σ) : σ :=
  match f s with
  | .ok s' => s'
  | .error _ => s

/-- The error of a refused command. -/
def refusal (f : σ → Except ε σ) (s : σ) : Option ε :=
  match f s with
  | .ok _ => none
  | .error e => some e

/-- How a state is read: cell by cell, beside the output written so far, latest first. -/
structure Cells (σ κ ν ω : Type) where
  view : σ → κ → ν
  output : σ → List ω

/-- Two footprints of which neither writes what the other looks at. -/
def Apart (reads writes reads' writes' : κ → Prop) : Prop := ∀ x, (writes x → ¬reads' x) ∧ (writes' x → ¬reads x)

theorem Apart.symm {reads writes reads' writes' : κ → Prop} (apart : Apart reads writes reads' writes') :
    Apart reads' writes' reads writes := fun x => (apart x).symm

variable {C : Cells σ κ ν ω}

def Cells.Agree (C : Cells σ κ ν ω) (K : κ → Prop) (s t : σ) : Prop := ∀ x, K x → C.view s x = C.view t x

/-- From `s` to `s'` the same output is added as from `t` to `t'`. -/
def Cells.SameOutput (C : Cells σ κ ν ω) (s s' t t' : σ) : Prop :=
  ∃ new, C.output s' = new ++ C.output s ∧ C.output t' = new ++ C.output t

/-- The same cells, and the same output but for its order. -/
structure Cells.Equal (C : Cells σ κ ν ω) (s t : σ) : Prop where
  view : ∀ x, C.view s x = C.view t x
  output : (C.output s).Perm (C.output t)

theorem Cells.Equal.refl (s : σ) : C.Equal s s := ⟨fun _ => rfl, .refl _⟩

theorem Cells.Equal.trans {s t u : σ} (first : C.Equal s t) (second : C.Equal t u) : C.Equal s u :=
  ⟨fun x => (first.view x).trans (second.view x), first.output.trans second.output⟩

/-- A command that looks at no cell but those in `reads`, and changes none but those in `writes`. -/
structure Cells.Local (C : Cells σ κ ν ω) (reads writes : κ → Prop) (f : σ → Except ε σ) : Prop where
  within : ∀ x, writes x → reads x
  frame : ∀ s s', f s = .ok s' → ∀ x, ¬writes x → C.view s' x = C.view s x
  same : ∀ s t, C.Agree reads s t → Alike (fun s' t' => C.Agree reads s' t' ∧ C.SameOutput s s' t t') (f s) (f t)

section Local
variable {reads writes reads' writes' : κ → Prop} {f g : σ → Except ε σ} {s t : σ} {x : κ}

theorem Cells.Local.after_frame (command : C.Local reads writes f) (s : σ) (kept : ¬writes x) :
    C.view (after f s) x = C.view s x := by
  unfold after
  split
  · rename_i s' ran
    exact command.frame s s' ran x kept
  · rfl

theorem Cells.Local.after_same (command : C.Local reads writes f) (agree : C.Agree reads s t) :
    C.Agree reads (after f s) (after f t) ∧ C.SameOutput s (after f s) t (after f t) ∧ refusal f s = refusal f t := by
  have alike := command.same s t agree
  unfold after refusal
  cases ran : f s with
  | ok s' =>
    cases ran' : f t with
    | ok t' =>
      simp only [ran, ran', Alike] at alike
      exact ⟨alike.1, alike.2, rfl⟩
    | error e => simp only [ran, ran', Alike] at alike
  | error e =>
    cases ran' : f t with
    | ok t' => simp only [ran, ran', Alike] at alike
    | error e' =>
      simp only [ran, ran', Alike] at alike
      exact ⟨agree, ⟨[], rfl, rfl⟩, congrArg some alike⟩

/-- A command leaves alone what a command apart from it looks at. -/
theorem Cells.Local.spares (other : C.Local reads' writes' g) (apart : Apart reads writes reads' writes') (s : σ) :
    C.Agree reads (after g s) s := by
  intro x read
  exact other.after_frame s fun written => (apart x).2 written read

/-- A command apart from another has the same result after it. -/
theorem Cells.Local.undisturbed (command : C.Local reads writes f) (other : C.Local reads' writes' g)
    (apart : Apart reads writes reads' writes') (s : σ) : refusal f (after g s) = refusal f s :=
  (command.after_same (other.spares apart s)).2.2

theorem Cells.Local.view_swap (command : C.Local reads writes f) (other : C.Local reads' writes' g)
    (apart : Apart reads writes reads' writes') (s : σ) (read : reads x) :
    C.view (after g (after f s)) x = C.view (after f (after g s)) x := by
  have kept := other.after_frame (after f s) fun written => (apart x).2 written read
  exact kept.trans ((command.after_same (other.spares apart s)).1 x read).symm

/-- Commands apart from each other commute. -/
theorem Cells.Local.commute (command : C.Local reads writes f) (other : C.Local reads' writes' g)
    (apart : Apart reads writes reads' writes') (s : σ) :
    C.Equal (after g (after f s)) (after f (after g s)) := by
  refine ⟨fun x => ?_, ?_⟩
  · by_cases read : reads x
    · exact command.view_swap other apart s read
    by_cases read' : reads' x
    · exact (other.view_swap command apart.symm s read').symm
    -- Neither looks at the cell, so neither writes it.
    have kept := fun s => command.after_frame s fun written => read (command.within x written)
    have kept' := fun s => other.after_frame s fun written => read' (other.within x written)
    rw [kept', kept, kept, kept']
  · obtain ⟨new, after_other, first⟩ := (command.after_same (other.spares apart s)).2.1
    obtain ⟨new', after_command, second⟩ := (other.after_same (command.spares apart.symm s)).2.1
    rw [after_command, first, after_other, second, ← List.append_assoc, ← List.append_assoc]
    exact List.perm_append_comm.append_right _

/-- A command does the same to states that are equal. -/
theorem Cells.Local.congr (command : C.Local reads writes f) (equal : C.Equal s t) :
    C.Equal (after f s) (after f t) ∧ refusal f s = refusal f t := by
  obtain ⟨agree, ⟨new, out, out'⟩, same⟩ := command.after_same fun x _ => equal.view x
  refine ⟨⟨fun x => ?_, ?_⟩, same⟩
  · by_cases read : reads x
    · exact agree x read
    · have kept : ¬writes x := fun written => read (command.within x written)
      rw [command.after_frame s kept, command.after_frame t kept, equal.view x]
  · rw [out, out']
    exact equal.output.append_left new

end Local

/-- The state after a script, refused commands changing nothing. -/
def runAll (run : ι → σ → Except ε σ) (s : σ) (script : List ι) : σ := script.foldl (fun s i => after (run i) s) s

/-- Each command of a script, with its error where it is refused. -/
def results (run : ι → σ → Except ε σ) (s : σ) : List ι → List (ι × Option ε)
  | [] => []
  | i :: rest => (i, refusal (run i) s) :: results run (after (run i) s) rest

/-- The second script brings each command of the first forward past commands apart from it alone. -/
inductive Reorders (apart : ι → ι → Prop) : List ι → List ι → Prop
  | done : Reorders apart [] []
  | pull {i rest front back} (past : ∀ j ∈ front, apart i j) (others : Reorders apart rest (front ++ back)) :
      Reorders apart (i :: rest) (front ++ i :: back)

theorem Reorders.weaken {apart apart' : ι → ι → Prop} {script script' : List ι}
    (reordered : Reorders apart script script') (wider : ∀ i j, apart i j → apart' i j) :
    Reorders apart' script script' := by
  induction reordered with
  | done => exact .done
  | pull past _ ih => exact .pull (fun j member => wider _ j (past j member)) ih

/-- A batch of commands apart from one another may run in any order. -/
theorem Reorders.of_perm {apart : ι → ι → Prop} {script script' : List ι} (batch : script.Pairwise apart)
    (perm : script.Perm script') : Reorders apart script script' := by
  induction script generalizing script' with
  | nil =>
    rw [List.nil_perm.mp perm]
    exact .done
  | cons i rest ih =>
    obtain ⟨first, later⟩ := List.pairwise_cons.mp batch
    obtain ⟨front, back, rfl⟩ := List.append_of_mem (perm.subset List.mem_cons_self)
    have others : rest.Perm (front ++ back) := (perm.trans List.perm_middle).cons_inv
    refine .pull (fun j member => first j ?_) (ih later others)
    exact others.symm.subset (List.mem_append_left _ member)

section Scripts
variable {run : ι → σ → Except ε σ} {reads writes : ι → κ → Prop}

theorem runAll_congr (commands : ∀ i, C.Local (reads i) (writes i) (run i)) {s t : σ} (equal : C.Equal s t)
    (script : List ι) : C.Equal (runAll run s script) (runAll run t script) ∧
      results run s script = results run t script := by
  induction script generalizing s t with
  | nil => exact ⟨equal, rfl⟩
  | cons i rest ih =>
    obtain ⟨next, same⟩ := (commands i).congr equal
    obtain ⟨final, others⟩ := ih next
    exact ⟨final, by rw [results, results, same, others]⟩

/-- A command can run before others that are apart from it. -/
theorem runAll_front (commands : ∀ i, C.Local (reads i) (writes i) (run i)) {i : ι} {front : List ι}
    (past : ∀ j ∈ front, Apart (reads i) (writes i) (reads j) (writes j)) (back : List ι) (s : σ) :
    C.Equal (runAll run s (i :: (front ++ back))) (runAll run s (front ++ i :: back)) ∧
      (results run s (i :: (front ++ back))).Perm (results run s (front ++ i :: back)) := by
  induction front generalizing s with
  | nil => exact ⟨.refl _, .refl _⟩
  | cons j front ih =>
    have apart := past j List.mem_cons_self
    obtain ⟨later, others⟩ := ih (fun j' member => past j' (List.mem_cons_of_mem j member)) (after (run j) s)
    obtain ⟨swapped, same⟩ :=
      runAll_congr commands ((commands i).commute (commands j) apart s) (front ++ back)
    refine ⟨swapped.trans later, ?_⟩
    have alone := (commands i).undisturbed (commands j) apart s
    have alone' := (commands j).undisturbed (commands i) apart.symm s
    simp only [List.cons_append, results, alone, alone', same] at others ⊢
    exact (List.Perm.swap _ _ _).trans (others.cons _)

/-- A reordering past commands that are apart ends in the same state, with the same result for each command. -/
theorem runAll_reorders (commands : ∀ i, C.Local (reads i) (writes i) (run i)) {script script' : List ι}
    (reordered : Reorders (fun i j => Apart (reads i) (writes i) (reads j) (writes j)) script script') (s : σ) :
    C.Equal (runAll run s script) (runAll run s script') ∧ (results run s script).Perm (results run s script') := by
  induction reordered generalizing s with
  | done => exact ⟨.refl _, .refl _⟩
  | @pull i rest front back past others ih =>
    obtain ⟨final, same⟩ := ih (after (run i) s)
    obtain ⟨moved, same'⟩ := runAll_front commands past back s
    refine ⟨final.trans moved, List.Perm.trans ?_ same'⟩
    exact same.cons (i, refusal (run i) s)

end Scripts

end Footprint
