import Upshift.Lib.Rounding
import Upshift.Vault.Quotes

namespace Upshift
open Guard

section RoundTrip
variable {supply total amount minted assets offset : Nat}

/-- A deposit at or above par leaves the vault there, since no share is issued for less than one asset. -/
theorem deposit_stays_above (above : supply ≤ total)
    (bought : minted = amount * (supply + offset) / (total + offset)) : supply + minted ≤ total + amount := by
  have cheap : amount * (supply + offset) ≤ (total + offset) * amount := by
    rw [Nat.mul_comm]
    exact Nat.mul_le_mul_right amount (Nat.add_le_add_right above offset)
  have fewer : minted ≤ amount := bought ▸ Nat.div_le_of_le_mul cheap
  omega

theorem deposit_stays_below (held : 0 < total) (below : total < supply) (bought : minted = amount * supply / total) :
    total + amount < supply + minted := by
  have dear : amount ≤ minted := by
    rw [bought, Nat.le_div_iff_mul_le held]
    exact Nat.mul_le_mul_left amount below.le
  omega

theorem round_trip_above (positive : 0 < offset) (above : supply ≤ total)
    (quoted : VaultState.sharesForDepositWithOffset supply total amount offset = .ok minted)
    (redeemed : VaultState.assetsForRedeemWithOffset (supply + minted) (total + amount) minted offset = .ok assets) :
    assets ≤ amount ∧ (amount - assets) * (supply + offset) < (total + offset) + (supply + offset) := by
  have bought := VaultState.sharesForDeposit_above positive above quoted
  have sold := VaultState.assetsForRedeem_above positive (deposit_stays_above above bought) redeemed
  rw [Nat.add_right_comm total, Nat.add_right_comm supply] at sold
  refine ⟨Rounding.returned_le bought sold, ?_⟩
  have lost := Rounding.lost_lt (Nat.add_pos_right total positive) (by omega) bought sold
  have unit : (amount - assets) * (supply + offset) ≤
      (amount - assets - 1) * (supply + offset + minted) + (supply + offset) := by
    calc (amount - assets) * (supply + offset) ≤ (amount - assets - 1 + 1) * (supply + offset) :=
          Nat.mul_le_mul_right _ (by omega)
      _ = (amount - assets - 1) * (supply + offset) + (supply + offset) := Nat.succ_mul _ _
      _ ≤ _ := Nat.add_le_add_right (Nat.mul_le_mul_left _ (Nat.le_add_right _ _)) _
  omega

theorem round_trip_below (positive : 0 < offset) (below : total < supply)
    (quoted : VaultState.sharesForDepositWithOffset supply total amount offset = .ok minted)
    (redeemed : VaultState.assetsForRedeemWithOffset (supply + minted) (total + amount) minted offset = .ok assets) :
    assets ≤ amount ∧ amount ≤ assets + 1 := by
  obtain ⟨held, bought⟩ := VaultState.sharesForDeposit_below positive below quoted
  have sold := VaultState.assetsForRedeem_below positive (deposit_stays_below held below bought) redeemed
  refine ⟨Rounding.returned_le bought sold, ?_⟩
  have lost := Rounding.lost_lt held (by omega) bought sold
  by_contra more
  have unit : 1 * (supply + minted) ≤ (amount - assets - 1) * (supply + minted) :=
    Nat.mul_le_mul_right _ (by omega)
  omega

/-- The whole supply of a vault below par is quoted everything it holds. -/
theorem redeem_all_below (positive : 0 < offset) (below : total < supply)
    (quoted : VaultState.assetsForRedeemWithOffset supply total supply offset = .ok assets) : assets = total := by
  rw [VaultState.assetsForRedeem_below positive below quoted]
  exact Nat.mul_div_cancel_left total (Nat.zero_lt_of_lt below)

theorem incumbents_below (positive : 0 < offset) (below : total < supply)
    (quoted : VaultState.sharesForDepositWithOffset supply total amount offset = .ok minted)
    (claimed : VaultState.assetsForRedeemWithOffset (supply + minted) (total + amount) supply offset = .ok assets) :
    assets = total := by
  obtain ⟨held, bought⟩ := VaultState.sharesForDeposit_below positive below quoted
  rw [VaultState.assetsForRedeem_below positive (deposit_stays_below held below bought) claimed]
  exact Rounding.others_eq held below.le bought

/-- A deposit redeemed at once returns no more than was paid. At or above par it loses less than one share's
price and a unit, and below par it loses at most a unit and leaves the others the whole of what they had. -/
theorem deposit_round_trip (positive : 0 < offset)
    (quoted : VaultState.sharesForDepositWithOffset supply total amount offset = .ok minted) :
    (∀ assets, VaultState.assetsForRedeemWithOffset (supply + minted) (total + amount) minted offset = .ok assets →
      assets ≤ amount ∧
        (supply ≤ total → (amount - assets) * (supply + offset) < (total + offset) + (supply + offset)) ∧
        (total < supply → amount ≤ assets + 1)) ∧
    (total < supply →
      (∀ claim, VaultState.assetsForRedeemWithOffset supply total supply offset = .ok claim → claim = total) ∧
      ∀ claim, VaultState.assetsForRedeemWithOffset (supply + minted) (total + amount) supply offset = .ok claim →
        claim = total) := by
  refine ⟨fun assets redeemed => ?_, fun below => ⟨fun claim => ?_, fun claim => ?_⟩⟩
  · by_cases above : supply ≤ total
    · obtain ⟨most, loss⟩ := round_trip_above positive above quoted redeemed
      exact ⟨most, fun _ => loss, fun below => absurd above (Nat.not_le.mpr below)⟩
    · obtain ⟨most, loss⟩ := round_trip_below positive (Nat.lt_of_not_le above) quoted redeemed
      exact ⟨most, fun par => absurd par above, fun _ => loss⟩
  · exact redeem_all_below positive below
  · exact incumbents_below positive below quoted

end RoundTrip

/-- After a loss of a third the depositor is a unit short. -/
theorem round_trip_after_loss :
    VaultState.assetsForRedeemWithOffset (3000 + 1501) (2000 + 1001) 1501 1000 = .ok 1000 ∧ 1001 ≤ 1000 + 1 := by
  have redeemed : VaultState.assetsForRedeemWithOffset (3000 + 1501) (2000 + 1001) 1501 1000 = .ok 1000 := by
    decide +kernel
  have loss := (@deposit_round_trip 3000 2000 1001 1501 1000 (by decide) (by decide +kernel)).1 1000 redeemed
  exact ⟨redeemed, loss.2.2 (by decide)⟩

end Upshift
