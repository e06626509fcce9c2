import Upshift.Vault.Price

namespace Upshift
open Guard

/-- The answer of a pricing function, in the order it refuses: a pool without a price, a product out of
`u128`, a quote out of `u64`. -/
def VaultState.answer (supply total product quote : Nat) : Result Nat :=
  if total = 0 ∧ 0 < supply then .error (.vault .sharePriceUndefined)
  else if 2 ^ 128 ≤ product then .error (.vault .mathError)
  else if u64Max < quote then .error (.vault .numberOverflow)
  else .ok quote

section Terms
variable {supply total amount offset : Nat}

/-- Of two ratios the one that is no smaller gives no smaller a part of an amount. -/
theorem floor_share_mono {part whole part' whole' : Nat}
    (ratio : (part : ℚ) / (whole : ℚ) ≤ (part' : ℚ) / (whole' : ℚ)) (amount : Nat) :
    amount * part / whole ≤ amount * part' / whole' := by
  rw [floor_share, floor_share]
  exact Nat.floor_mono (mul_le_mul_of_nonneg_left ratio (Nat.cast_nonneg amount))

theorem offset_term_le (above : supply ≤ total) (outstanding : 0 < supply) (positive : 0 < offset) (amount : Nat) :
    amount * (total + offset) / (supply + offset) ≤ amount * total / supply := by
  refine floor_share_mono ?_ amount
  rw [Nat.cast_add, Nat.cast_add]
  exact OffsetPrice.shifted_le (Nat.cast_le.mpr above) (Nat.cast_pos.mpr outstanding) (Nat.cast_pos.mpr positive)

theorem le_offset_term (below : total ≤ supply) (outstanding : 0 < supply) (positive : 0 < offset) (amount : Nat) :
    amount * total / supply ≤ amount * (total + offset) / (supply + offset) := by
  refine floor_share_mono ?_ amount
  rw [Nat.cast_add, Nat.cast_add]
  exact OffsetPrice.le_shifted (Nat.cast_le.mpr below) (Nat.cast_pos.mpr outstanding) (Nat.cast_pos.mpr positive)

/-- The larger of the two deposit terms is the amount at the share price, rounded down. -/
theorem deposit_floor (defined : 0 < total ∨ supply = 0) (positive : 0 < offset) (amount : Nat) :
    (if total = 0 then amount * (supply + offset) / (total + offset)
      else max (amount * (supply + offset) / (total + offset)) (amount * supply / total)) =
      ⌊(amount : ℚ) / sharePrice offset supply total⌋₊ := by
  have shift : (0 : ℚ) < offset := Nat.cast_pos.mpr positive
  unfold sharePrice
  by_cases empty : supply = 0
  · subst empty
    rw [mul_zero, Nat.zero_div, Nat.max_zero, ite_self, OffsetPrice.price, if_pos Nat.cast_zero, zero_add, floor_share,
      Nat.cast_add, div_div_eq_mul_div, mul_div_assoc]
  · have held : 0 < total := defined.resolve_right empty
    have outstanding : (0 : ℚ) < supply := Nat.cast_pos.mpr (Nat.pos_of_ne_zero empty)
    rw [if_neg held.ne']
    rcases Nat.le_total supply total with above | below
    · rw [max_eq_left (le_offset_term above held positive amount), floor_share,
        OffsetPrice.price_of_above (Nat.cast_le.mpr above) outstanding shift, Nat.cast_add, Nat.cast_add,
        div_div_eq_mul_div, mul_div_assoc]
    · rw [max_eq_right (offset_term_le below held positive amount), floor_share,
        OffsetPrice.price_of_below (Nat.cast_le.mpr below) outstanding shift, div_div_eq_mul_div, mul_div_assoc]

end Terms

section Regimes
variable {supply total amount shares assets offset : Nat}

/-- At or above par both quotes go by the shifted ratio, and below par both go by the pro-rata one. -/
theorem VaultState.sharesForDeposit_above (positive : 0 < offset) (above : supply ≤ total)
    (quoted : VaultState.sharesForDepositWithOffset supply total amount offset = .ok shares) :
    shares = amount * (supply + offset) / (total + offset) := by
  obtain ⟨_, rfl⟩ := VaultState.sharesForDeposit_value quoted
  by_cases empty : total = 0
  · rw [if_pos empty]
  · rw [if_neg empty, max_eq_left (le_offset_term above (Nat.pos_of_ne_zero empty) positive amount)]

theorem VaultState.sharesForDeposit_below (positive : 0 < offset) (below : total < supply)
    (quoted : VaultState.sharesForDepositWithOffset supply total amount offset = .ok shares) :
    0 < total ∧ shares = amount * supply / total := by
  obtain ⟨defined, rfl⟩ := VaultState.sharesForDeposit_value quoted
  have held : 0 < total := by omega
  rw [if_neg held.ne', max_eq_right (offset_term_le below.le held positive amount)]
  exact ⟨held, rfl⟩

theorem VaultState.assetsForRedeem_above (positive : 0 < offset) (above : supply ≤ total)
    (quoted : VaultState.assetsForRedeemWithOffset supply total shares offset = .ok assets) :
    assets = shares * (total + offset) / (supply + offset) := by
  obtain ⟨_, rfl⟩ := VaultState.assetsForRedeem_value quoted
  by_cases empty : supply = 0
  · rw [if_pos empty]
  · rw [if_neg empty, min_eq_left (offset_term_le above (Nat.pos_of_ne_zero empty) positive shares)]

theorem VaultState.assetsForRedeem_below (positive : 0 < offset) (below : total < supply)
    (quoted : VaultState.assetsForRedeemWithOffset supply total shares offset = .ok assets) :
    assets = shares * total / supply := by
  obtain ⟨_, rfl⟩ := VaultState.assetsForRedeem_value quoted
  have outstanding : 0 < supply := Nat.zero_lt_of_lt below
  rw [if_neg outstanding.ne', min_eq_right (le_offset_term below.le outstanding positive shares)]

end Regimes

section Answers
variable {supply total amount shares offset : Nat}

theorem VaultState.isValidShareOffset_bounds (permitted : VaultState.isValidShareOffset offset) :
    0 < offset ∧ offset ≤ 1000000 := by
  unfold VaultState.isValidShareOffset at permitted
  split at permitted
  · cases permitted
  · rename_i bounds
    simp only [not_not, minShareOffset, maxShareOffset] at bounds
    omega

/-- The shares or the assets of a vault with the virtual ones added are in range. -/
theorem shifted_fits (bounded : supply ≤ u64Max) (small : offset ≤ 1000000) :
    checkedAdd u128Max supply offset = some (supply + offset) := by
  refine if_pos ?_
  simp only [u64Max, u128Max] at bounded ⊢
  omega

theorem u128_product {n : Nat} : 2 ^ 128 ≤ n ↔ ¬n ≤ u128Max := by
  simp only [u128Max]
  omega

theorem VaultState.sharesForDeposit_answer (permitted : VaultState.isValidShareOffset offset)
    (outstanding : supply ≤ u64Max) (held : total ≤ u64Max) (amount : Nat) :
    VaultState.sharesForDepositWithOffset supply total amount offset =
      VaultState.answer supply total (amount * (supply + offset)) ⌊(amount : ℚ) / sharePrice offset supply total⌋₊ := by
  obtain ⟨positive, small⟩ := VaultState.isValidShareOffset_bounds permitted
  unfold VaultState.sharesForDepositWithOffset VaultState.answer
  by_cases undefined : total = 0 ∧ 0 < supply
  · rw [if_pos undefined, require_neg (by omega), error_bind]
  · have defined : 0 < total ∨ supply = 0 := by omega
    rw [if_neg undefined, require_pos defined, shifted_fits outstanding small, shifted_fits held small,
      ← deposit_floor defined positive amount]
    simp only [okOr_some, ok_bind]
    by_cases wide : 2 ^ 128 ≤ amount * (supply + offset)
    · rw [if_pos wide, checkedMul, if_neg (u128_product.mp wide), okOr_none, error_bind]
    · have fits : amount * (supply + offset) ≤ u128Max := not_not.mp (mt u128_product.mpr wide)
      have narrower : amount * supply ≤ u128Max := (Nat.mul_le_mul_left amount (Nat.le_add_right ..)).trans fits
      have divisor : total + offset ≠ 0 := by omega
      rw [if_neg wide, checkedMul, if_pos fits, okOr_some, ok_bind, checkedDiv, if_neg divisor, okOr_some, ok_bind]
      by_cases empty : total = 0
      · simp only [if_pos empty]
        exact okOr_tryFrom ..
      · simp only [if_neg empty, checkedMul, if_pos narrower, checkedDiv, okOr_some, ok_bind]
        exact okOr_tryFrom ..

theorem VaultState.assetsForRedeem_answer (permitted : VaultState.isValidShareOffset offset)
    (outstanding : supply ≤ u64Max) (held : total ≤ u64Max) (shares : Nat) :
    VaultState.assetsForRedeemWithOffset supply total shares offset =
      VaultState.answer supply total (shares * (total + offset)) ⌊(shares : ℚ) * sharePrice offset supply total⌋₊ := by
  obtain ⟨positive, small⟩ := VaultState.isValidShareOffset_bounds permitted
  unfold VaultState.assetsForRedeemWithOffset VaultState.answer
  by_cases undefined : total = 0 ∧ 0 < supply
  · rw [if_pos undefined, require_neg (by omega), error_bind]
  · have defined : 0 < total ∨ supply = 0 := by omega
    rw [if_neg undefined, require_pos defined, shifted_fits outstanding small, shifted_fits held small,
      ← redeem_floor supply total shares offset]
    simp only [okOr_some, ok_bind]
    by_cases wide : 2 ^ 128 ≤ shares * (total + offset)
    · rw [if_pos wide, checkedMul, if_neg (u128_product.mp wide), okOr_none, error_bind]
    · have fits : shares * (total + offset) ≤ u128Max := not_not.mp (mt u128_product.mpr wide)
      have narrower : shares * total ≤ u128Max := (Nat.mul_le_mul_left shares (Nat.le_add_right ..)).trans fits
      have divisor : supply + offset ≠ 0 := by omega
      rw [if_neg wide, checkedMul, if_pos fits, okOr_some, ok_bind, checkedDiv, if_neg divisor, okOr_some, ok_bind]
      by_cases empty : supply = 0
      · simp only [if_pos empty]
        exact okOr_tryFrom ..
      · simp only [if_neg empty, checkedMul, if_pos narrower, checkedDiv, okOr_some, ok_bind]
        exact okOr_tryFrom ..

end Answers

/-- Both pricing functions quote one price, in the range of the vault's fields. -/
structure QuotesAgree (offset supply total : Nat) : Prop where
  opening : supply = 0 → sharePrice offset supply total = ((total : ℚ) + offset) / offset
  price : 0 < supply →
    sharePrice offset supply total = min (((total : ℚ) + offset) / (supply + offset)) ((total : ℚ) / supply)
  deposit : ∀ amount ≤ u64Max, VaultState.sharesForDepositWithOffset supply total amount offset =
    VaultState.answer supply total (amount * (supply + offset)) ⌊(amount : ℚ) / sharePrice offset supply total⌋₊
  redeem : ∀ shares ≤ u64Max, VaultState.assetsForRedeemWithOffset supply total shares offset =
    VaultState.answer supply total (shares * (total + offset)) ⌊(shares : ℚ) * sharePrice offset supply total⌋₊
  above : 0 < supply → supply ≤ total →
    sharePrice offset supply total = ((total : ℚ) + offset) / (supply + offset) ∧
      ∀ n, max (n * (supply + offset) / (total + offset)) (n * supply / total) =
          n * (supply + offset) / (total + offset) ∧
        min (n * (total + offset) / (supply + offset)) (n * total / supply) = n * (total + offset) / (supply + offset)
  below : 0 < total → total ≤ supply →
    sharePrice offset supply total = (total : ℚ) / supply ∧
      ∀ n, max (n * (supply + offset) / (total + offset)) (n * supply / total) = n * supply / total ∧
        min (n * (total + offset) / (supply + offset)) (n * total / supply) = n * total / supply
  capped : 0 < supply → ∀ shares ≤ supply,
    (∀ assets, VaultState.assetsForRedeemWithOffset supply total shares offset = .ok assets → assets ≤ total) ∧
      VaultState.assetsForRedeemWithOffset supply total shares offset ≠ .error (.vault .numberOverflow)

/-- No part of the outstanding shares is worth more than everything. -/
theorem redeem_floor_le {supply total shares offset : Nat} (positive : 0 < offset) (within : shares ≤ supply) :
    ⌊(shares : ℚ) * sharePrice offset supply total⌋₊ ≤ total := by
  have shift : (0 : ℚ) < offset := Nat.cast_pos.mpr positive
  have floor := OffsetPrice.price_nonneg shift (Nat.cast_nonneg supply) (Nat.cast_nonneg total)
  obtain ⟨_, proRata⟩ := OffsetPrice.price_claims shift (Nat.cast_nonneg supply) (Nat.cast_nonneg total)
  refine Nat.floor_le_of_le ?_
  calc (shares : ℚ) * sharePrice offset supply total ≤ supply * sharePrice offset supply total :=
        mul_le_mul_of_nonneg_right (Nat.cast_le.mpr within) floor
    _ = sharePrice offset supply total * supply := mul_comm _ _
    _ ≤ total := proRata

theorem VaultState.answer_overflow {supply total product quote : Nat} (small : quote ≤ u64Max) :
    VaultState.answer supply total product quote ≠ .error (.vault .numberOverflow) := by
  unfold VaultState.answer
  intro overflows
  split at overflows
  · cases overflows
  · split at overflows
    · cases overflows
    · rw [if_neg (Nat.not_lt.mpr small)] at overflows
      cases overflows

/-- For every supply and total, deposits and redemptions are quoted at the share price, rounded down, and
refused exactly where there is no price or a number leaves its range. -/
theorem quotes_agree {offset : Nat} (permitted : VaultState.isValidShareOffset offset) (supply total : UInt64) :
    QuotesAgree offset supply.toNat total.toNat := by
  obtain ⟨positive, _⟩ := VaultState.isValidShareOffset_bounds permitted
  have shift : (0 : ℚ) < offset := Nat.cast_pos.mpr positive
  have outstanding : supply.toNat ≤ u64Max := Nat.le_of_lt_succ supply.toNat_lt
  have held : total.toNat ≤ u64Max := Nat.le_of_lt_succ total.toNat_lt
  constructor
  · intro empty
    rw [sharePrice, OffsetPrice.price, if_pos (Nat.cast_eq_zero.mpr empty)]
  · intro some
    rw [sharePrice, OffsetPrice.price, if_neg (Nat.cast_ne_zero.mpr some.ne')]
  · exact fun amount _ => VaultState.sharesForDeposit_answer permitted outstanding held amount
  · exact fun shares _ => VaultState.assetsForRedeem_answer permitted outstanding held shares
  · intro some above
    have full : 0 < total.toNat := some.trans_le above
    refine ⟨OffsetPrice.price_of_above (Nat.cast_le.mpr above) (Nat.cast_pos.mpr some) shift, fun n => ⟨?_, ?_⟩⟩
    · exact max_eq_left (le_offset_term above full positive n)
    · exact min_eq_left (offset_term_le above some positive n)
  · intro full below
    have some : 0 < supply.toNat := full.trans_le below
    refine ⟨OffsetPrice.price_of_below (Nat.cast_le.mpr below) (Nat.cast_pos.mpr some) shift, fun n => ⟨?_, ?_⟩⟩
    · exact max_eq_right (offset_term_le below full positive n)
    · exact min_eq_right (le_offset_term below some positive n)
  · intro some shares within
    have bounded : ⌊(shares : ℚ) * sharePrice offset supply.toNat total.toNat⌋₊ ≤ total.toNat :=
      redeem_floor_le positive within
    constructor
    · intro assets quoted
      rw [assetsForRedeem_floor quoted]
      exact bounded
    · rw [VaultState.assetsForRedeem_answer permitted outstanding held shares]
      exact VaultState.answer_overflow (bounded.trans held)

/-- The whole range at the smallest offset, where the widest products leave `u128`. -/
theorem quotes_agree_full : QuotesAgree 1000 (2 ^ 64 - 1) (2 ^ 64 - 1) :=
  quotes_agree (by decide) (UInt64.ofNat (2 ^ 64 - 1)) (UInt64.ofNat (2 ^ 64 - 1))

end Upshift
