import Upshift.Lib.OffsetPrice

namespace OffsetPrice

variable {K : Type*} [Field K] [LinearOrder K] [IsStrictOrderedRing K]
  {offset supply assets supply' assets' supply'' assets'' : K}

/-- What retiring `shares` for `amount`, in any number of parts that were rounded down by `slack` together,
does to a pool. -/
structure Retired (offset supply assets supply' assets' shares amount slack : K) : Prop where
  burned : supply' + shares = supply
  paid : assets' + amount = assets
  price_le : price offset supply assets ≤ price offset supply' assets'
  claims : ∀ rest, 0 ≤ rest → rest ≤ supply' →
    amount + rest * price offset supply' assets' ≤ (shares + rest) * price offset supply assets
  rounded : shares * price offset supply assets ≤ amount + slack

section Retired
variable {shares amount slack shares' amount' slack' : K}

omit [IsStrictOrderedRing K] in
theorem Retired.refl (offset supply assets : K) : Retired offset supply assets supply assets 0 0 0 := by
  refine ⟨add_zero _, add_zero _, le_rfl, fun rest _ _ => ?_, ?_⟩
  · rw [zero_add, zero_add]
  · rw [zero_mul, zero_add]

/-- One part, rounded down by at most the slack. -/
theorem Retired.single (positive : 0 < offset) (none : 0 ≤ supply) (held : 0 ≤ assets) (within : shares ≤ supply)
    (kept : amount ≤ assets) (fair : amount ≤ shares * price offset supply assets)
    (rounded : shares * price offset supply assets ≤ amount + slack) :
    Retired offset supply assets (supply - shares) (assets - amount) shares amount slack :=
  ⟨sub_add_cancel _ _, sub_add_cancel _ _, price_le_retire positive none held within kept fair,
    fun _ some remain => retire_claims positive none held kept remain some fair, rounded⟩

theorem Retired.trans (first : Retired offset supply assets supply' assets' shares amount slack)
    (second : Retired offset supply' assets' supply'' assets'' shares' amount' slack') (some : 0 ≤ shares') :
    Retired offset supply assets supply'' assets'' (shares + shares') (amount + amount') (slack + slack') := by
  refine ⟨?_, ?_, first.price_le.trans second.price_le, fun rest none remain => ?_, ?_⟩
  · rw [add_comm shares, ← add_assoc, second.burned, first.burned]
  · rw [add_comm amount, ← add_assoc, second.paid, first.paid]
  · have outer := first.claims (shares' + rest) (add_nonneg some none) (by linarith [second.burned])
    have inner := second.claims rest none remain
    rw [← add_assoc] at outer
    linarith
  · have dearer := mul_le_mul_of_nonneg_left first.price_le some
    have here := first.rounded
    have there := second.rounded
    rw [add_mul]
    linarith

omit [IsStrictOrderedRing K] in
/-- The shares that were retired were worth at least what was paid for them. -/
theorem Retired.amount_le (retired : Retired offset supply assets supply' assets' shares amount slack)
    (left : 0 ≤ supply') : amount ≤ shares * price offset supply assets := by
  have claims := retired.claims 0 le_rfl left
  rwa [zero_mul, add_zero, add_zero] at claims

/-- Shares that remain gain no more than the slack. -/
theorem Retired.gain_le (retired : Retired offset supply assets supply' assets' shares amount slack) {rest : K}
    (none : 0 ≤ rest) (remain : rest ≤ supply') :
    rest * price offset supply' assets' ≤ rest * price offset supply assets + slack := by
  have claims := retired.claims rest none remain
  have rounded := retired.rounded
  rw [add_mul] at claims
  linarith

end Retired

/-- What `count` issues of at least one share each do to a pool above par: it stays above par, and its price
grows by no more than the shares that every issue could have rounded off. -/
structure Issued (offset supply assets supply' assets' count : K) : Prop where
  grown : supply + count ≤ supply'
  above : supply' ≤ assets'
  price_le : price offset supply' assets' * (supply + offset + 1) ≤
    price offset supply assets * (supply + offset + 1 + count)

section Issued
variable {count count' : K}

omit [IsStrictOrderedRing K] in
theorem Issued.refl (offset : K) (above : supply ≤ assets) : Issued offset supply assets supply assets 0 :=
  ⟨by rw [add_zero], above, by rw [add_zero]⟩

theorem Issued.single {amount minted : K} (positive : 0 < offset) (shares : 0 ≤ supply) (above : supply ≤ assets)
    (some : 1 ≤ minted) (fair : minted * price offset supply assets ≤ amount)
    (rounded : amount ≤ (minted + 1) * price offset supply assets) :
    Issued offset supply assets (supply + minted) (assets + amount) 1 := by
  have issued : 0 ≤ minted := zero_le_one.trans some
  have dear := one_le_price positive shares above
  have paid : minted ≤ amount := (le_mul_of_one_le_right issued dear).trans fair
  have grown := issue_price_le positive shares issued above (issued.trans paid) rounded
  refine ⟨by linarith, by linarith, ?_⟩
  -- The bound is for the shares there are after the issue, and is weaker for fewer of them.
  have size : 0 < supply + minted + offset := by linarith
  have fewer : supply + offset + 1 ≤ supply + minted + offset := by linarith
  have floor : 0 ≤ price offset supply assets := zero_le_one.trans dear
  refine le_of_mul_le_mul_right ?_ size
  calc price offset (supply + minted) (assets + amount) * (supply + offset + 1) * (supply + minted + offset)
      = price offset (supply + minted) (assets + amount) * (supply + minted + offset) * (supply + offset + 1) := by ring
    _ ≤ price offset supply assets * (supply + minted + offset + 1) * (supply + offset + 1) :=
        mul_le_mul_of_nonneg_right grown (by linarith)
    _ = price offset supply assets * ((supply + minted + offset) * (supply + offset + 1) + (supply + offset + 1)) := by
        ring
    _ ≤ price offset supply assets * ((supply + minted + offset) * (supply + offset + 1) +
          (supply + minted + offset)) := mul_le_mul_of_nonneg_left (by linarith) floor
    _ = price offset supply assets * (supply + offset + 1 + 1) * (supply + minted + offset) := by ring

theorem Issued.trans (first : Issued offset supply assets supply' assets' count)
    (second : Issued offset supply' assets' supply'' assets'' count') (positive : 0 < offset) (shares : 0 ≤ supply)
    (above : supply ≤ assets) (some : 0 ≤ count) (some' : 0 ≤ count') :
    Issued offset supply assets supply'' assets'' (count + count') := by
  have grown := first.grown
  have grown' := second.grown
  refine ⟨by linarith, second.above, ?_⟩
  have floor := price_nonneg positive shares (shares.trans above)
  have outer := first.price_le
  have inner := second.price_le
  have size : 0 < supply' + offset + 1 := by linarith
  have wider : supply + offset + 1 + count ≤ supply' + offset + 1 := by linarith
  refine le_of_mul_le_mul_right ?_ size
  calc price offset supply'' assets'' * (supply + offset + 1) * (supply' + offset + 1)
      = price offset supply'' assets'' * (supply' + offset + 1) * (supply + offset + 1) := by ring
    _ ≤ price offset supply' assets' * (supply' + offset + 1 + count') * (supply + offset + 1) :=
        mul_le_mul_of_nonneg_right inner (by linarith)
    _ = price offset supply' assets' * (supply + offset + 1) * (supply' + offset + 1 + count') := by ring
    _ ≤ price offset supply assets * (supply + offset + 1 + count) * (supply' + offset + 1 + count') :=
        mul_le_mul_of_nonneg_right outer (by linarith)
    _ = price offset supply assets * ((supply + offset + 1 + count) * (supply' + offset + 1) +
          (supply + offset + 1 + count) * count') := by ring
    _ ≤ price offset supply assets * ((supply + offset + 1 + count) * (supply' + offset + 1) +
          (supply' + offset + 1) * count') :=
        mul_le_mul_of_nonneg_left (add_le_add_right (mul_le_mul_of_nonneg_right wider some') _) floor
    _ = price offset supply assets * (supply + offset + 1 + (count + count')) * (supply' + offset + 1) := by ring

end Issued

end OffsetPrice
