import Mathlib.Algebra.Order.Floor.Semifield
import Mathlib.Tactic.Ring

namespace Rounding

section Exchange
variable {a A B m r : Nat}

/-- An amount `a` of one good, held against `A` of it, buys the part `m` of `B` of the other, rounded down.
Selling `m` back out of the enlarged holdings never returns more than was paid. -/
theorem returned_le (bought : m = a * B / A) (sold : r = m * (A + a) / (B + m)) : r ≤ a := by
  have spent : m * A ≤ a * B := bought ▸ Nat.div_mul_le_self (a * B) A
  subst sold
  refine Nat.div_le_of_le_mul ?_
  calc m * (A + a) = m * A + m * a := Nat.mul_add _ _ _
    _ ≤ a * B + m * a := Nat.add_le_add_right spent _
    _ = (B + m) * a := by ring

/-- What is not returned, apart from the last unit, is worth less than one unit of the other good. -/
theorem lost_lt (some : 0 < A) (left : 0 < B + m) (bought : m = a * B / A) (sold : r = m * (A + a) / (B + m)) :
    (a - r - 1) * (B + m) < A := by
  have remainder : a * B < m * A + A := by
    rw [bought]
    exact Nat.lt_div_mul_add some
  have rounded : m * (A + a) < r * (B + m) + (B + m) := by
    rw [sold]
    exact Nat.lt_div_mul_add left
  by_cases lost : a ≤ r + 1
  · rw [show a - r - 1 = 0 by omega, Nat.zero_mul]
    exact some
  · obtain ⟨d, rfl⟩ : ∃ d, a = r + 1 + d := ⟨a - (r + 1), by omega⟩
    rw [show r + 1 + d - r - 1 = d by omega]
    have split : m * (A + (r + 1 + d)) + (r + 1 + d) * B = m * A + (r + 1 + d) * (B + m) := by ring
    have expand : (r + 1 + d) * (B + m) = r * (B + m) + (B + m) + d * (B + m) := by ring
    omega

/-- At a price of at most one the other holders' part is worth exactly what it was. -/
theorem others_eq (some : 0 < A) (below : A ≤ B) (bought : m = a * B / A) : B * (A + a) / (B + m) = A := by
  have spent : m * A ≤ a * B := bought ▸ Nat.div_mul_le_self (a * B) A
  have remainder : a * B < m * A + A := by
    rw [bought]
    exact Nat.lt_div_mul_add some
  have whole : B * (A + a) = A * (B + m) + (a * B - m * A) := by
    have split : B * (A + a) + m * A = A * (B + m) + a * B := by ring
    omega
  rw [whole, Nat.mul_comm, Nat.mul_add_div (by omega), Nat.div_eq_of_lt (by omega), Nat.add_zero]

end Exchange

section Parts
variable {n d : Nat}

/-- Parts rounded down one by one make no more than the part of the sum. -/
theorem sum_div_le (amounts : List Nat) : (amounts.map (· * n / d)).sum ≤ amounts.sum * n / d := by
  induction amounts with
  | nil => exact Nat.zero_le _
  | cons a amounts ih =>
    rw [List.map_cons, List.sum_cons, List.sum_cons, Nat.add_mul]
    exact (Nat.add_le_add_left ih _).trans (Nat.div_add_div_le_add_div)

/-- What is left of an amount after a part of it rounded up is the other part rounded down. -/
theorem sub_ceil (a : Nat) (positive : 0 < d) (part : n ≤ d) : a - (a * n + (d - 1)) / d = a * (d - n) / d := by
  have whole : a * n + a * (d - n) = a * d := by rw [← Nat.mul_add, Nat.add_sub_cancel' part]
  have lower : (a * n + (d - 1)) / d * d ≤ a * n + (d - 1) := Nat.div_mul_le_self _ _
  have upper : a * n + (d - 1) < (a * n + (d - 1)) / d * d + d := Nat.lt_div_mul_add positive
  have bounded : (a * n + (d - 1)) / d ≤ a := by
    have least : a * n ≤ a * d := Nat.mul_le_mul_left a part
    rw [← Nat.lt_succ_iff, Nat.div_lt_iff_lt_mul positive, Nat.succ_mul]
    omega
  generalize (a * n + (d - 1)) / d = q at *
  obtain ⟨r, rfl⟩ := Nat.exists_eq_add_of_le bounded
  rw [Nat.add_sub_cancel_left]
  have split : (q + r) * d = q * d + r * d := Nat.add_mul q r d
  refine (Nat.div_eq_of_lt_le ?_ ?_).symm
  · omega
  · rw [Nat.succ_mul]
    omega

/-- Adding one less than the divisor before a division rounds it up. -/
theorem ceil_div {K : Type*} [Field K] [LinearOrder K] [IsStrictOrderedRing K] [FloorSemiring K] (a : Nat)
    (positive : 0 < d) : (a + (d - 1)) / d = ⌈(a : K) / d⌉₊ := by
  refine eq_of_forall_ge_iff fun bound => ?_
  rw [Nat.ceil_le, div_le_iff₀ (Nat.cast_pos.mpr positive), ← Nat.cast_mul, Nat.cast_le, ← Nat.lt_succ_iff,
    Nat.div_lt_iff_lt_mul positive, Nat.succ_mul]
  omega

end Parts

section Compound
variable {x y z rate unit n : Nat}

/-- A loss of at most one part in each step is compounded, with nothing added by rounding. -/
theorem compound_le (before : x * rate ^ n ≤ y * unit ^ n) (last : rate * y ≤ z * unit) :
    x * rate ^ (n + 1) ≤ z * unit ^ (n + 1) := by
  calc x * rate ^ (n + 1) = rate * (x * rate ^ n) := by ring
    _ ≤ rate * (y * unit ^ n) := Nat.mul_le_mul_left rate before
    _ = rate * y * unit ^ n := by ring
    _ ≤ z * unit * unit ^ n := Nat.mul_le_mul_right (unit ^ n) last
    _ = z * unit ^ (n + 1) := by ring

theorem le_compound (before : y * unit ^ n ≤ x * rate ^ n) (last : z * unit ≤ rate * y) :
    z * unit ^ (n + 1) ≤ x * rate ^ (n + 1) := by
  calc z * unit ^ (n + 1) = z * unit * unit ^ n := by ring
    _ ≤ rate * y * unit ^ n := Nat.mul_le_mul_right (unit ^ n) last
    _ = rate * (y * unit ^ n) := by ring
    _ ≤ rate * (x * rate ^ n) := Nat.mul_le_mul_left rate before
    _ = x * rate ^ (n + 1) := by ring

end Compound

end Rounding
