import Upshift.Vault.Quotes
import Upshift.Vault.Trades

namespace Upshift
open Guard KeyedStore History

/-- Neither saturation of `min_opening_supply` is reached. -/
theorem VaultState.StoresOffset.minOpeningSupply_eq {v : VaultState} (stores : v.StoresOffset) :
    v.minOpeningSupply = 100 * v.resolvedShareOffset := by
  have small := (VaultState.isValidShareOffset_bounds stores.permitted).2
  have fits : 100 * v.resolvedShareOffset ≤ u64Max := by
    simp only [u64Max]
    omega
  rw [VaultState.minOpeningSupply, minSupplyMultiple, min_eq_left (fits.trans (by decide)), tryFrom, if_pos fits,
    Option.getD_some]

/-- A vault that holds nothing mints a share for each unit of its first deposit. -/
theorem sharesForDeposit_empty {amount offset shares : Nat} (positive : 0 < offset)
    (quoted : VaultState.sharesForDepositWithOffset 0 0 amount offset = .ok shares) : shares = amount := by
  rw [VaultState.sharesForDeposit_above positive le_rfl quoted, Nat.zero_add]
  exact Nat.mul_div_cancel _ positive

/-- With no shares out there are never more minted than assets behind them. -/
theorem sharesForDeposit_opening {total amount offset shares : Nat} (positive : 0 < offset)
    (quoted : VaultState.sharesForDepositWithOffset 0 total amount offset = .ok shares) : shares ≤ total + amount := by
  rw [VaultState.sharesForDeposit_above positive (Nat.zero_le _) quoted, Nat.zero_add]
  refine (Nat.div_le_of_le_mul ?_).trans (Nat.le_add_left amount total)
  rw [Nat.mul_comm]
  exact Nat.mul_le_mul_right amount (Nat.le_add_left offset total)

section Appreciation
variable {supply total gain offset after : Nat}

/-- A quote at a larger total is defined only where it is at a smaller one. -/
theorem redeem_all_defined (permitted : VaultState.isValidShareOffset offset) (outstanding : 0 < supply)
    (above : supply ≤ total) (fits : total + gain ≤ u64Max)
    (quoted : VaultState.assetsForRedeemWithOffset supply (total + gain) supply offset = .ok after) :
    ∃ before, VaultState.assetsForRedeemWithOffset supply total supply offset = .ok before := by
  have positive := (VaultState.isValidShareOffset_bounds permitted).1
  have held : total ≤ u64Max := (Nat.le_add_right total gain).trans fits
  rw [VaultState.assetsForRedeem_answer permitted (above.trans held) fits supply] at quoted
  rw [VaultState.assetsForRedeem_answer permitted (above.trans held) held supply]
  unfold VaultState.answer at quoted ⊢
  have narrow : ¬2 ^ 128 ≤ supply * (total + gain + offset) := by
    intro wide
    rw [if_neg (by omega), if_pos wide] at quoted
    cases quoted
  have smaller : supply * (total + offset) ≤ supply * (total + gain + offset) :=
    Nat.mul_le_mul_left supply (by omega)
  have most := @redeem_floor_le supply total supply offset positive le_rfl
  refine ⟨⌊(supply : ℚ) * sharePrice offset supply total⌋₊, ?_⟩
  rw [if_neg (by omega), if_neg (fun wide => narrow (wide.trans smaller)), if_neg (by omega)]

/-- The whole of a supply that is a hundred times the offset is quoted all but a part in a hundred and one of
any gain. -/
theorem appreciation_kept (positive : 0 < offset) (large : 100 * offset ≤ supply) (above : supply ≤ total)
    {before : Nat} (quoted : VaultState.assetsForRedeemWithOffset supply total supply offset = .ok before)
    (quoted' : VaultState.assetsForRedeemWithOffset supply (total + gain) supply offset = .ok after) :
    before + 100 * gain / 101 ≤ after := by
  rw [VaultState.assetsForRedeem_above positive above quoted,
    VaultState.assetsForRedeem_above positive (above.trans (Nat.le_add_right _ _)) quoted', Nat.add_right_comm,
    Nat.mul_add supply (total + offset) gain]
  have ratio : ((100 : Nat) : ℚ) / ((101 : Nat) : ℚ) ≤ (supply : ℚ) / ((supply + offset : Nat) : ℚ) := by
    rw [div_le_div_iff₀ (by norm_num) (Nat.cast_pos.mpr (Nat.add_pos_right supply positive)), ← Nat.cast_mul,
      ← Nat.cast_mul, Nat.cast_le]
    omega
  have kept := floor_share_mono ratio gain
  rw [Nat.mul_comm 100, Nat.mul_comm supply gain]
  exact (Nat.add_le_add_left kept _).trans Nat.div_add_div_le_add_div

end Appreciation

/-- A first deposit into a vault at zero supply, whatever assets it holds already. -/
structure Chain.OpensFairly (c : Chain) (k : Pubkey) (v : VaultState) : Prop where
  accepted : ∀ i c', Step c i c' → i.enters k → ∃ v', c'.vaults.lookup k = some v' ∧
    v'.localAum + v'.deployedAum = v.localAum + v.deployedAum + i.enterAmount ∧
    100 * v.resolvedShareOffset ≤ c'.bank.supply v.shareMint ∧
    c'.bank.supply v.shareMint ≤ v'.localAum + v'.deployedAum ∧
    ∀ gain after, v'.localAum + v'.deployedAum + gain ≤ u64Max →
      v'.assetsForRedeem (c'.bank.supply v.shareMint) (v'.localAum + v'.deployedAum + gain)
        (c'.bank.supply v.shareMint) = .ok after →
      ∃ before, c'.redeemQuote v' (c'.bank.supply v.shareMint) = .ok before ∧ before + 100 * gain / 101 ≤ after
  refused : ∀ i shares, i.enters k → c.depositQuote v i.enterAmount = .ok shares →
    shares < 100 * v.resolvedShareOffset → c.accepts i = false ∧ c.next i = c

/-- An opening deposit leaves a supply that dwarfs the offset, so that its depositor keeps what the vault gains,
or it is refused. -/
theorem opening_keeps_appreciation {c : Chain} {k : Pubkey} {v : VaultState} (vault : c.vaults.lookup k = some v)
    (addressed : v.Addressed k) (unissued : c.bank.supply v.shareMint = 0) (stores : v.StoresOffset) :
    c.OpensFairly k v := by
  have positive := v.resolvedShareOffset_pos
  constructor
  · intro i c' taken enters
    have entry := taken.entry enters vault addressed
    obtain ⟨_, quoted⟩ := Chain.depositQuote_eq_ok.mp entry.quoted
    rw [unissued] at quoted
    have minted := entry.minted
    rw [unissued, Nat.zero_add] at minted
    have total : v.localAum + i.enterAmount + v.deployedAum = v.localAum + v.deployedAum + i.enterAmount :=
      Nat.add_right_comm _ _ _
    have above : c.minted k i ≤ v.localAum + i.enterAmount + v.deployedAum := by
      rw [total]
      exact sharesForDeposit_opening positive quoted
    have large : 100 * v.resolvedShareOffset ≤ c.minted k i := stores.minOpeningSupply_eq ▸ entry.opening unissued
    refine ⟨_, entry.vault, total, minted ▸ large, minted ▸ above, fun gain after fits quoted' => ?_⟩
    rw [minted] at quoted' ⊢
    have outstanding := entry.positive
    obtain ⟨before, priced⟩ := redeem_all_defined stores.permitted outstanding above fits quoted'
    refine ⟨before, ?_, appreciation_kept positive large above priced quoted'⟩
    refine Chain.redeemQuote_eq_ok.mpr ⟨(Nat.le_add_right _ gain).trans fits, ?_⟩
    simp only [minted]
    exact priced
  · intro i shares enters quoted small
    cases accepted : c.accepts i with
    | false => exact ⟨rfl, Chain.next_of_refused accepted⟩
    | true =>
      have entry := Step.entry (.of_accepts accepted) enters vault addressed
      have same : c.minted k i = shares := Except.ok.inj (entry.quoted.symm.trans quoted)
      have least := entry.opening unissued
      rw [stores.minOpeningSupply_eq, same] at least
      exact absurd least (Nat.not_le.mpr small)

namespace Sample

/-- The vault before its first deposit. -/
def launched : Chain := (Chain.genesis (some admin)).runAll opening.dropLast

def vaultLaunched : VaultState := { vaultOpened with localAum := 0 }

theorem launched_vault : launched.vaults.lookup vault = some vaultLaunched := by decide +kernel

end Sample

open Sample in
theorem launched_opens_fairly : launched.OpensFairly vault vaultLaunched :=
  opening_keeps_appreciation launched_vault ⟨rfl, rfl⟩ (by decide +kernel) (Or.inr (by decide +kernel))

end Upshift
