import Mathlib.Algebra.Order.Field.Basic
import Mathlib.Tactic.Linarith
import Mathlib.Tactic.Ring

namespace OffsetPrice

variable {K : Type*} [Field K] [LinearOrder K] [IsStrictOrderedRing K]

/-- The price of one share of a pool holding `assets` against `supply` shares, with `offset`
virtual shares and assets on each side. The pro-rata price caps it once shares exist. -/
def price (offset supply assets : K) : K :=
  if supply = 0 then (assets + offset) / offset
  else min ((assets + offset) / (supply + offset)) (assets / supply)

variable {offset supply assets supply' assets' p : K}

/-- A price is at most the pool's when it can be paid on every share, the virtual ones counted
and not counted. -/
theorem le_price_iff (positive : 0 < offset) (shares : 0 ≤ supply) (held : 0 ≤ assets) :
    p ≤ price offset supply assets ↔ p * (supply + offset) ≤ assets + offset ∧ p * supply ≤ assets := by
  unfold price
  split
  · rename_i empty
    subst empty
    rw [le_div_iff₀ positive, zero_add, mul_zero]
    exact ⟨fun bound => ⟨bound, held⟩, fun bound => bound.1⟩
  · rename_i some
    have outstanding : 0 < supply := lt_of_le_of_ne shares (Ne.symm some)
    rw [le_min_iff, le_div_iff₀ (by linarith), le_div_iff₀ outstanding]

theorem price_claims (positive : 0 < offset) (shares : 0 ≤ supply) (held : 0 ≤ assets) :
    price offset supply assets * (supply + offset) ≤ assets + offset ∧
      price offset supply assets * supply ≤ assets :=
  (le_price_iff positive shares held).mp le_rfl

theorem price_nonneg (positive : 0 < offset) (shares : 0 ≤ supply) (held : 0 ≤ assets) :
    0 ≤ price offset supply assets := by
  rw [le_price_iff positive shares held]
  constructor <;> linarith

/-- Where something is held, or no share is out yet, a share is worth something. -/
theorem price_pos (positive : 0 < offset) (shares : 0 ≤ supply) (held : 0 ≤ assets)
    (defined : 0 < assets ∨ supply = 0) : 0 < price offset supply assets := by
  unfold price
  split
  · exact div_pos (by linarith) positive
  · rename_i some
    have outstanding : 0 < supply := lt_of_le_of_ne shares (Ne.symm some)
    have behind : 0 < assets := defined.resolve_right some
    exact lt_min (div_pos (by linarith) (by linarith)) (div_pos behind outstanding)

/-- One of the two claims is exhausted exactly. -/
theorem price_attained (assets : K) (positive : 0 < offset) (shares : 0 ≤ supply) :
    price offset supply assets * (supply + offset) = assets + offset ∨
      0 < supply ∧ price offset supply assets * supply = assets := by
  unfold price
  split
  · rename_i empty
    subst empty
    exact Or.inl (by rw [zero_add, div_mul_cancel₀ _ positive.ne'])
  · rename_i some
    have outstanding : 0 < supply := lt_of_le_of_ne shares (Ne.symm some)
    have whole : supply + offset ≠ 0 := by linarith
    rcases min_choice ((assets + offset) / (supply + offset)) (assets / supply) with virtual | proRata
    · exact Or.inl (by rw [virtual, div_mul_cancel₀ _ whole])
    · exact Or.inr ⟨outstanding, by rw [proRata, div_mul_cancel₀ _ outstanding.ne']⟩

/-- Above par the virtual shares and assets pull the price down, and below par they push it up. -/
theorem shifted_le (above : supply ≤ assets) (outstanding : 0 < supply) (positive : 0 < offset) :
    (assets + offset) / (supply + offset) ≤ assets / supply := by
  have scaled := mul_le_mul_of_nonneg_left above positive.le
  rw [div_le_div_iff₀ (by linarith) outstanding, add_mul, mul_add, mul_comm assets offset]
  linarith

theorem le_shifted (below : assets ≤ supply) (outstanding : 0 < supply) (positive : 0 < offset) :
    assets / supply ≤ (assets + offset) / (supply + offset) := by
  have scaled := mul_le_mul_of_nonneg_left below positive.le
  rw [div_le_div_iff₀ outstanding (by linarith), add_mul, mul_add, mul_comm assets offset]
  linarith

theorem price_of_above (above : supply ≤ assets) (outstanding : 0 < supply) (positive : 0 < offset) :
    price offset supply assets = (assets + offset) / (supply + offset) := by
  rw [price, if_neg outstanding.ne', min_eq_left (shifted_le above outstanding positive)]

theorem price_of_below (below : assets ≤ supply) (outstanding : 0 < supply) (positive : 0 < offset) :
    price offset supply assets = assets / supply := by
  rw [price, if_neg outstanding.ne', min_eq_right (le_shifted below outstanding positive)]

/-- More assets or fewer shares never lower the price. -/
theorem price_mono (positive : 0 < offset) (shares' : 0 ≤ supply') (held : 0 ≤ assets)
    (fewer : supply' ≤ supply) (more : assets ≤ assets') :
    price offset supply assets ≤ price offset supply' assets' := by
  have shares := shares'.trans fewer
  have floor := price_nonneg positive shares held
  obtain ⟨virtual, proRata⟩ := price_claims positive shares held
  have smaller := mul_le_mul_of_nonneg_left fewer floor
  rw [le_price_iff positive shares' (held.trans more)]
  constructor
  · rw [mul_add] at virtual ⊢
    linarith
  · linarith

/-- Issuing shares for at least their price keeps the price. -/
theorem price_le_issue {amount minted : K} (positive : 0 < offset) (shares : 0 ≤ supply)
    (held : 0 ≤ assets) (paid : 0 ≤ amount) (issued : 0 ≤ minted)
    (fair : minted * price offset supply assets ≤ amount) :
    price offset supply assets ≤ price offset (supply + minted) (assets + amount) := by
  obtain ⟨virtual, proRata⟩ := price_claims positive shares held
  rw [mul_comm] at fair
  rw [le_price_iff positive (by linarith) (by linarith)]
  constructor
  · have split : price offset supply assets * (supply + minted + offset) =
        price offset supply assets * (supply + offset) + price offset supply assets * minted := by ring
    linarith
  · rw [mul_add]
    linarith

/-- Retiring shares for at most their price keeps the price. -/
theorem price_le_retire {amount burned : K} (positive : 0 < offset) (shares : 0 ≤ supply)
    (held : 0 ≤ assets) (within : burned ≤ supply) (kept : amount ≤ assets)
    (fair : amount ≤ burned * price offset supply assets) :
    price offset supply assets ≤ price offset (supply - burned) (assets - amount) := by
  obtain ⟨virtual, proRata⟩ := price_claims positive shares held
  rw [mul_comm] at fair
  rw [le_price_iff positive (by linarith) (by linarith)]
  constructor
  · have split : price offset supply assets * (supply - burned + offset) =
        price offset supply assets * (supply + offset) - price offset supply assets * burned := by ring
    linarith
  · rw [mul_sub]
    linarith

/-- What retiring some shares leaves behind is worth no more to the remaining ones than the retired
ones forwent. -/
theorem retire_claims {amount burned rest : K} (positive : 0 < offset) (shares : 0 ≤ supply)
    (held : 0 ≤ assets) (kept : amount ≤ assets) (remain : rest ≤ supply - burned) (none : 0 ≤ rest)
    (fair : amount ≤ burned * price offset supply assets) :
    amount + rest * price offset (supply - burned) (assets - amount) ≤
      (burned + rest) * price offset supply assets := by
  have within : burned ≤ supply := by linarith
  have risen := price_le_retire positive shares held within kept fair
  obtain ⟨virtual, proRata⟩ := price_claims positive (sub_nonneg.mpr within) (sub_nonneg.mpr kept)
  generalize price offset (supply - burned) (assets - amount) = p' at *
  have gain : 0 ≤ p' - price offset supply assets := sub_nonneg.mpr risen
  rcases price_attained assets positive shares with exhausted | ⟨_, exhausted⟩
  · have part := mul_le_mul_of_nonneg_left (remain.trans (le_add_of_nonneg_right positive.le)) gain
    linarith
  · have part := mul_le_mul_of_nonneg_left remain gain
    linarith

/-- Issuing shares above par raises the price by at most what one share more would have cost, spread
over the shares there are then. -/
theorem issue_price_le {amount minted : K} (positive : 0 < offset) (shares : 0 ≤ supply) (issued : 0 ≤ minted)
    (above : supply ≤ assets) (paid : 0 ≤ amount) (rounded : amount ≤ (minted + 1) * price offset supply assets) :
    price offset (supply + minted) (assets + amount) * (supply + minted + offset) ≤
      price offset supply assets * (supply + minted + offset + 1) := by
  obtain ⟨virtual, _⟩ := price_claims positive (add_nonneg shares issued) (add_nonneg (shares.trans above) paid)
  have exhausted : price offset supply assets * (supply + offset) = assets + offset := by
    rcases price_attained assets positive shares with exhausted | ⟨outstanding, _⟩
    · exact exhausted
    · rw [price_of_above above outstanding positive, div_mul_cancel₀]
      linarith
  linarith

/-- At or above par no share costs less than one asset. -/
theorem one_le_price (positive : 0 < offset) (shares : 0 ≤ supply) (above : supply ≤ assets) :
    1 ≤ price offset supply assets := by
  rw [le_price_iff positive shares (shares.trans above)]
  constructor <;> linarith

/-- A pool with no fewer shares at no lower a price holds no less. -/
theorem assets_le_of_price_le (positive : 0 < offset) (shares : 0 ≤ supply) (held : 0 ≤ assets)
    (held' : 0 ≤ assets') (more : supply ≤ supply')
    (rises : price offset supply assets ≤ price offset supply' assets') : assets ≤ assets' := by
  have floor := price_nonneg positive shares held
  obtain ⟨virtual, proRata⟩ := (le_price_iff positive (shares.trans more) held').mp rises
  have larger := mul_le_mul_of_nonneg_left more floor
  rw [mul_add] at virtual
  rcases price_attained assets positive shares with exhausted | ⟨_, exhausted⟩
  · rw [mul_add] at exhausted
    linarith
  · linarith

end OffsetPrice
