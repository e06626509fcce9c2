import Upshift.Lib.KeyedStore

namespace Replay
open KeyedStore

/-- What one recorded event does to a keyed store. -/
inductive Change (κ α : Type)
  | opened (k : κ) (a : α)
  | amended (k : κ) (f : α → α)
  | closed (k : κ)

variable {κ α : Type} [DecidableEq κ] {s : Store κ α} {k k' : κ} {a : α} {f : α → α} {w : α → Nat}

def Change.apply (s : Store κ α) : Change κ α → Store κ α
  | .opened k a => s.insert k a
  | .amended k f =>
    match s.lookup k with
    | some a => s.insert k (f a)
    | none => s
  | .closed k => s.erase k

/-- The store that a record of changes describes. The record lists the latest change first. -/
def replay (changes : List (Change κ α)) : Store κ α := changes.foldr (fun change s => change.apply s) ∅

theorem Change.amended_apply (found : s.lookup k = some a) : Change.apply s (.amended k f) = s.insert k (f a) := by
  rw [Change.apply, found]

theorem total_opened (fresh : s.lookup k = none) (a : α) :
    total w (Change.apply s (.opened k a)) = total w s + w a :=
  (total_insert_fresh w a fresh).trans (Nat.add_comm _ _)

/-- An amendment that keeps a measure of the value keeps its total. -/
theorem total_amended (found : s.lookup k = some a) (kept : w (f a) = w a) :
    total w (Change.apply s (.amended k f)) = total w s := by
  have moved := total_insert w (f a) found
  rw [Change.amended_apply found]
  omega

theorem total_closed (found : s.lookup k = some a) : total w (Change.apply s (.closed k)) = total w s - w a := by
  have removed := total_erase w found
  rw [Change.apply]
  omega

/-- The number of live keys. -/
def size (s : Store κ α) : Nat := s.entries.card

omit [DecidableEq κ] in
theorem size_eq_total (s : Store κ α) : size s = total (fun _ => 1) s := by
  simp only [size, total, Multiset.map_const', Multiset.sum_replicate, nsmul_eq_mul, mul_one, Nat.cast_id]

theorem size_opened (fresh : s.lookup k = none) (a : α) : size (Change.apply s (.opened k a)) = size s + 1 := by
  rw [size_eq_total, size_eq_total, total_opened fresh]

theorem size_amended (found : s.lookup k = some a) : size (Change.apply s (.amended k f)) = size s := by
  rw [size_eq_total, size_eq_total]
  exact total_amended found rfl

theorem size_closed (found : s.lookup k = some a) : size (Change.apply s (.closed k)) = size s - 1 := by
  rw [size_eq_total, size_eq_total, total_closed found]

end Replay
