import Mathlib.Algebra.Order.BigOperators.Group.Multiset
import Mathlib.Algebra.Order.Ring.Nat
import Mathlib.Data.Finmap
import Upshift.Lib.Guard

namespace KeyedStore

/-- A finite map holding at most one value for each key. -/
abbrev Store (κ α : Type) := Finmap fun _ : κ => α

variable {κ α β ε : Type} [DecidableEq κ]

/-- The value stored at a key, or the given error when there is none. -/
def fetch (s : Store κ α) (k : κ) (e : ε) : Except ε α :=
  match s.lookup k with
  | some a => .ok a
  | none => .error e

omit [DecidableEq κ] in
/-- The sum of a measure over every stored value. -/
def total (f : α → Nat) (s : Store κ α) : Nat := (s.entries.map fun entry => f entry.2).sum

@[simp] theorem fetch_eq_ok {s : Store κ α} {k : κ} {e : ε} {a : α} :
    fetch s k e = .ok a ↔ s.lookup k = some a := by
  unfold fetch
  split <;> simp_all

@[simp] theorem fetch_eq_error {s : Store κ α} {k : κ} {e e' : ε} :
    fetch s k e = .error e' ↔ s.lookup k = none ∧ e = e' := by
  unfold fetch
  split <;> simp_all

theorem fetch_fails {P : ε → Prop} {s : Store κ α} {k : κ} {e : ε} (allowed : s.lookup k = none → P e) :
    Guard.FailsWith P (fetch s k e) := by
  unfold fetch
  split
  · exact .ok _
  · rename_i absent
    exact .error (allowed absent)

theorem lookup_insert_ite (s : Store κ α) (k k' : κ) (a : α) :
    (s.insert k a).lookup k' = if k' = k then some a else s.lookup k' := by
  by_cases same : k' = k
  · subst same
    simp only [Finmap.lookup_insert, if_true]
  · simp only [Finmap.lookup_insert_of_ne s same, same, if_false]

theorem lookup_erase_ite (s : Store κ α) (k k' : κ) :
    (s.erase k).lookup k' = if k' = k then none else s.lookup k' := by
  by_cases same : k' = k
  · subst same
    simp only [Finmap.lookup_erase, if_true]
  · simp only [Finmap.lookup_erase_ne same, same, if_false]

/-- What is found after an overwrite is the new value, or was there before. -/
theorem lookup_insert_cases {s : Store κ α} {k k' : κ} {a b : α}
    (found : (s.insert k a).lookup k' = some b) : k' = k ∧ b = a ∨ k' ≠ k ∧ s.lookup k' = some b := by
  rw [lookup_insert_ite] at found
  split at found
  · rename_i here
    exact Or.inl ⟨here, (Option.some.inj found).symm⟩
  · rename_i other
    exact Or.inr ⟨other, found⟩

/-- A value found before an overwrite and after it is the new one, or is as it was. -/
theorem lookup_rewritten {s : Store κ α} {k k' : κ} {a b b' : α} (found : s.lookup k' = some b)
    (found' : (s.insert k a).lookup k' = some b') : k' = k ∧ b' = a ∨ k' ≠ k ∧ b' = b := by
  rcases lookup_insert_cases found' with here | ⟨other, before⟩
  · exact Or.inl here
  · exact Or.inr ⟨other, Option.some.inj (before.symm.trans found)⟩

/-- A reflexive relation between the old value of an overwritten key and the new one holds across the overwrite
at every key. -/
theorem rewritten_related {R : α → α → Prop} {s : Store κ α} {k k' : κ} {a a' b b' : α} (same : ∀ a, R a a)
    (at' : s.lookup k = some a) (found : s.lookup k' = some b) (found' : (s.insert k a').lookup k' = some b')
    (related : R a a') : R b b' := by
  rcases lookup_rewritten found found' with ⟨rfl, rfl⟩ | ⟨_, rfl⟩
  · cases Option.some.inj (at'.symm.trans found)
    exact related
  · exact same _

theorem lookup_erase_cases {s : Store κ α} {k k' : κ} {b : α} (found : (s.erase k).lookup k' = some b) :
    k' ≠ k ∧ s.lookup k' = some b := by
  rw [lookup_erase_ite] at found
  split at found
  · cases found
  · rename_i other
    exact ⟨other, found⟩

theorem insert_erase_of_lookup {s : Store κ α} {k : κ} {a : α} (found : s.lookup k = some a) :
    (s.erase k).insert k a = s := by
  apply Finmap.ext_lookup
  intro k'
  rw [lookup_insert_ite, lookup_erase_ite]
  by_cases same : k' = k
  · subst same
    simp only [if_true, found]
  · simp only [same, if_false]

theorem insert_eq_insert_erase (s : Store κ α) (k : κ) (a : α) :
    s.insert k a = (s.erase k).insert k a := by
  apply Finmap.ext_lookup
  intro k'
  simp only [lookup_insert_ite, lookup_erase_ite]
  split <;> rfl

theorem total_insert_fresh (f : α → Nat) {s : Store κ α} {k : κ} (a : α)
    (fresh : s.lookup k = none) : total f (s.insert k a) = f a + total f s := by
  simp only [total, Finmap.entries_insert_of_notMem (Finmap.lookup_eq_none.mp fresh),
    Multiset.map_cons, Multiset.sum_cons]

theorem total_erase (f : α → Nat) {s : Store κ α} {k : κ} {a : α} (found : s.lookup k = some a) :
    total f (s.erase k) + f a = total f s := by
  have fresh : (s.erase k).lookup k = none := Finmap.lookup_erase k s
  have whole := total_insert_fresh f a fresh
  rw [insert_erase_of_lookup found] at whole
  omega

/-- Overwriting a key moves the total by the difference of the two values. -/
theorem total_insert (f : α → Nat) {s : Store κ α} {k : κ} {a : α} (b : α)
    (found : s.lookup k = some a) : total f (s.insert k b) + f a = total f s + f b := by
  have fresh : (s.erase k).lookup k = none := Finmap.lookup_erase k s
  have added := total_insert_fresh f b fresh
  have removed := total_erase f found
  rw [← insert_eq_insert_erase] at added
  omega

theorem le_total (f : α → Nat) {s : Store κ α} {k : κ} {a : α} (found : s.lookup k = some a) :
    f a ≤ total f s := by
  have removed := total_erase f found
  omega

/-- Values at two different keys fit in the total together. -/
theorem add_le_total (f : α → Nat) {s : Store κ α} {k k' : κ} {a a' : α}
    (found : s.lookup k = some a) (found' : s.lookup k' = some a') (different : k ≠ k') :
    f a + f a' ≤ total f s := by
  have removed := total_erase f found
  have other : (s.erase k).lookup k' = some a' := by
    rw [Finmap.lookup_erase_ne different.symm, found']
  have bound := le_total f other
  omega

/-- Overwriting two keys moves the total by the difference of the two pairs of values. -/
theorem total_insert_insert (f : α → Nat) {s : Store κ α} {k k' : κ} {a a' : α} (b b' : α)
    (found : s.lookup k = some a) (found' : s.lookup k' = some a') (different : k ≠ k') :
    total f ((s.insert k b).insert k' b') + (f a + f a') = total f s + (f b + f b') := by
  have first := total_insert f b found
  have there : (s.insert k b).lookup k' = some a' :=
    (Finmap.lookup_insert_of_ne s different.symm).trans found'
  have second := total_insert f b' there
  omega

theorem total_congr {f g : α → Nat} {s : Store κ α}
    (agree : ∀ k a, s.lookup k = some a → f a = g a) : total f s = total g s := by
  refine congrArg Multiset.sum (Multiset.map_congr rfl ?_)
  rintro ⟨k, a⟩ member
  exact agree k a (Finmap.lookup_eq_some_iff.mpr member)

omit [DecidableEq κ] in
theorem total_add (f g : α → Nat) (s : Store κ α) :
    total (fun a => f a + g a) s = total f s + total g s :=
  Multiset.sum_map_add

theorem total_le {f g : α → Nat} {s : Store κ α}
    (bound : ∀ k a, s.lookup k = some a → f a ≤ g a) : total f s ≤ total g s := by
  refine Multiset.sum_map_le_sum_map _ _ ?_
  rintro ⟨k, a⟩ member
  exact bound k a (Finmap.lookup_eq_some_iff.mpr member)

/-- A positive total comes from some stored value. -/
theorem exists_of_total_pos {f : α → Nat} {s : Store κ α} (positive : 0 < total f s) :
    ∃ k a, s.lookup k = some a ∧ 0 < f a := by
  by_contra none
  push Not at none
  have zero : total f s = total (fun _ => 0) s :=
    total_congr fun k a found => Nat.le_zero.mp (none k a found)
  have empty : total (fun _ : α => 0) s = 0 := by simp [total]
  omega

/-- What a reader of one aspect of the values sees at each key. -/
def view (f : α → β) (s : Store κ α) (k : κ) : Option β := (s.lookup k).map f

section View
variable {f : α → β} {s : Store κ α} {k : κ} {a b : α}

theorem view_insert : view f (s.insert k a) = Function.update (view f s) k (some (f a)) := by
  funext k'
  simp only [view, lookup_insert_ite, Function.update_apply]
  split
  · rfl
  · rfl

theorem view_erase : view f (s.erase k) = Function.update (view f s) k none := by
  funext k'
  simp only [view, lookup_erase_ite, Function.update_apply]
  split
  · rfl
  · rfl

theorem view_amend {change : β → β} (found : s.lookup k = some a) (amended : f b = change (f a)) :
    view f (s.insert k b) = Function.update (view f s) k ((view f s k).map change) := by
  have seen : view f s k = some (f a) := congrArg (Option.map f) found
  rw [view_insert, seen, amended, Option.map_some]

/-- The aspect stays where an overwrite leaves it alone. -/
theorem view_kept (found : s.lookup k = some a) (same : f b = f a) : view f (s.insert k b) = view f s := by
  have seen : view f s k = some (f a) := congrArg (Option.map f) found
  rw [view_insert, same, ← seen, Function.update_eq_self]

end View

end KeyedStore
