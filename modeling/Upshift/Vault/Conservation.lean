import Mathlib.Algebra.BigOperators.Group.Finset.Piecewise
import Upshift.Vault.Splitting

namespace Upshift
open Guard KeyedStore History

/-- What a redemption of `shares` for a gross amount did, with every unit of it accounted for. -/
structure Chain.Conserves (c c' : Chain) (a : Redeem) (v : VaultState) (shares minAssetsOut gross fee net : Nat) :
    Prop where
  vault : c.vaults.lookup a.vaultState = some v
  quoted : c.redeemQuote v shares = .ok gross
  rate : v.withdrawalFee < 100000
  fee_eq : fee = ⌈(gross * v.withdrawalFee : ℚ) / 1000000⌉₊
  net_eq : net = ⌊(gross * (1000000 - v.withdrawalFee) : ℚ) / 1000000⌋₊
  fee_le : fee ≤ gross
  floor : minAssetsOut ≤ net
  split : fee + net = gross
  liquid : gross ≤ v.localAum
  after : c'.vaults = c.vaults.insert a.vaultState { v with localAum := v.localAum - gross }
  supply : c'.bank.supply v.shareMint + shares = c.bank.supply v.shareMint
  burned : c'.bank.balance a.senderShareAccount + shares = c.bank.balance a.senderShareAccount
  moved : ∀ account, account ≠ a.senderShareAccount →
    c'.bank.balance account + (if account = a.vaultDepositAta then gross else 0) =
      c.bank.balance account + (if account = a.feeRecipientAccount then fee else 0) +
        (if account = a.senderTokenAccount then net else 0)
  conserved : ∑ account ∈ {a.vaultDepositAta, a.senderTokenAccount, a.feeRecipientAccount}, c'.bank.balance account =
    ∑ account ∈ {a.vaultDepositAta, a.senderTokenAccount, a.feeRecipientAccount}, c.bank.balance account

section Fee
variable {gross withdrawalFee : Nat}

theorem Redeem.feeOf_ceil : Redeem.feeOf gross withdrawalFee = ⌈(gross * withdrawalFee : ℚ) / 1000000⌉₊ := by
  have up := @Rounding.ceil_div 1000000 ℚ _ _ _ _ (gross * withdrawalFee) (by decide)
  rw [Nat.cast_mul] at up
  exact up

theorem Redeem.sub_feeOf_floor (bounded : withdrawalFee < 100000) :
    gross - Redeem.feeOf gross withdrawalFee = ⌊(gross * (1000000 - withdrawalFee) : ℚ) / 1000000⌋₊ := by
  have down : ⌊((gross * (1000000 - withdrawalFee) : Nat) : ℚ) / (1000000 : Nat)⌋₊ = _ := Nat.floor_div_eq_div _ _
  rw [Nat.cast_mul, Nat.cast_sub (by omega)] at down
  exact (Redeem.sub_feeOf bounded).trans down.symm

end Fee

theorem VaultState.assetsForRedeem_fits {supply total shares offset assets : Nat}
    (quoted : VaultState.assetsForRedeemWithOffset supply total shares offset = .ok assets) : assets ≤ u64Max := by
  simp only [VaultState.assetsForRedeemWithOffset, bind_eq_ok] at quoted
  obtain ⟨_, _, _, _, _, _, _, _, _, _, taken⟩ := quoted
  split at taken
  · simp only [bind_eq_ok, okOr_eq_ok, tryFrom_eq_some] at taken
    obtain ⟨_, _, fits, rfl⟩ := taken
    exact fits
  · simp only [bind_eq_ok, okOr_eq_ok, tryFrom_eq_some] at taken
    obtain ⟨_, _, _, _, _, _, fits, rfl⟩ := taken
    exact fits

section Redemption
variable {c c' : Chain} {i : Instruction} {a : Redeem} {v : VaultState} {m : Mint}
  {shares minAssetsOut gross fee : Nat} {paid : Bank}

/-- Where there is a quote there is a fee on it, and something not negative left. -/
theorem Chain.netQuote_defined (rate : v.withdrawalFee < 100000) (quoted : c.redeemQuote v shares = .ok gross) :
    c.netQuote v shares = .ok (gross - Redeem.feeOf gross v.withdrawalFee) := by
  have fits := VaultState.assetsForRedeem_fits (Chain.redeemQuote_eq_ok.mp quoted).2
  exact Chain.netQuote_eq_ok.mpr ⟨gross, quoted, _, Redeem.fees_defined fits rate, Redeem.feeOf_le rate, rfl⟩

/-- The deposit token only moves among the three accounts, however many of them there really are. -/
theorem Redeem.interactions_conserve {b : Bank} {fees finalAmount : Nat}
    (ran : a.interactions b shares fees finalAmount = .ok paid) (accounts : Finset Pubkey)
    (reserve : a.vaultDepositAta ∈ accounts) (feeAccount : a.feeRecipientAccount ∈ accounts)
    (receiver : a.senderTokenAccount ∈ accounts) (burner : a.senderShareAccount ∉ accounts) :
    ∑ account ∈ accounts, paid.balance account = ∑ account ∈ accounts, b.balance account := by
  have flows := Finset.sum_congr rfl fun account (_ : account ∈ accounts) => Redeem.interactions_flow ran account
  simp only [Finset.sum_add_distrib, Finset.sum_ite_eq', reserve, feeAccount, receiver, burner, if_true, if_false] at flows
  omega

theorem Redeem.Ran.conserves (ran : Redeem.Ran c a shares minAssetsOut v m gross fee paid)
    (formed : v.WellFormed a.vaultState) :
    c.Conserves (Redeem.after c a v gross paid) a v shares minAssetsOut gross fee (gross - fee) := by
  have valid := ran.valid
  obtain ⟨_, shareMint, _⟩ := formed.addresses valid.key valid.shareMintKey valid.reserveKey
  obtain ⟨apart, apart'⟩ := valid.burner_apart
  have flow := Redeem.interactions_flow ran.interactions
  have covered := (Redeem.interactions_covered ran.interactions).2
  have charged := Redeem.fees_eq_ok ran.charged
  have afforded := ran.afforded
  have whole : fee + (gross - fee) = gross := Nat.add_sub_cancel' afforded
  rw [whole] at flow
  refine ⟨valid.vault, ran.quote ⟨formed.key, formed.shareMint⟩, formed.fee,
    charged.trans Redeem.feeOf_ceil, charged ▸ Redeem.sub_feeOf_floor formed.fee, afforded, ran.bounded, whole,
    ran.liquid, rfl, ?_, ?_, fun account other => ?_, ?_⟩
  · change paid.supply v.shareMint + shares = _
    rw [shareMint, Redeem.interactions_supply ran.interactions, if_pos rfl]
    omega
  · have burned := flow a.senderShareAccount
    rwa [if_neg valid.burner, if_neg apart', if_neg apart, if_pos rfl] at burned
  · have moved := flow account
    rwa [if_neg other] at moved
  · refine Redeem.interactions_conserve ran.interactions _ ?_ ?_ ?_ ?_
    · exact Finset.mem_insert_self _ _
    · simp only [Finset.mem_insert, Finset.mem_singleton, or_true]
    · simp only [Finset.mem_insert, Finset.mem_singleton, true_or, or_true]
    · simp only [Finset.mem_insert, Finset.mem_singleton, valid.burner, apart, apart', or_false, not_false_eq_true]

/-- Every redemption conserves value exactly, whichever of its accounts are one and the same, and the fee on a
quote never stands in its way. A refused redemption changes nothing. -/
theorem Reachable.redeem_conserves (reach : Reachable c) (label : i.redeems = some (a, shares, minAssetsOut)) :
    (∀ c', Step c i c' → ∃ v gross fee net, c.Conserves c' a v shares minAssetsOut gross fee net) ∧
    (c.accepts i = false → c.next i = c) ∧
    ∀ v gross, c.vaults.lookup a.vaultState = some v → c.redeemQuote v shares = .ok gross →
      ∃ net, c.netQuote v shares = .ok net := by
  refine ⟨fun c' taken => ?_, Chain.next_of_refused, fun v gross vault quoted => ?_⟩
  · have executed := taken.executed
    rw [Chain.execute_redeems label] at executed
    obtain ⟨v, m, gross, fee, paid, ran, rfl⟩ := Redeem.handlerChecked_eq_ok.mp executed
    exact ⟨v, gross, fee, _, ran.conserves (reach.vaults_sound _ v ran.valid.vault).formed⟩
  · exact ⟨_, Chain.netQuote_defined (reach.vaults_sound _ v vault).formed.fee quoted⟩

end Redemption

namespace Sample

/-- The depositor is also the fee recipient, with one account for both. -/
def selfCharged : Chain :=
  (Chain.genesis (some admin)).runAll (opening ++
    [.vault (.setWithdrawalFee ⟨vault, mint, admin⟩ 10001), .vault (.setFeeRecipient ⟨vault, mint, admin⟩ user)])

def selfRedeem : Redeem := { redeem with feeRecipientAccount := wallet user }

end Sample

open Sample in
theorem self_charged_conserves : ∃ c', Step selfCharged (.vault (.redeemChecked selfRedeem 150 148)) c' ∧
    ∃ v gross fee net, selfCharged.Conserves c' selfRedeem v 150 148 gross fee net := by
  have taken : Step selfCharged (.vault (.redeemChecked selfRedeem 150 148)) _ := .of_accepts (by decide +kernel)
  have conserves := @Reachable.redeem_conserves selfCharged (.vault (.redeemChecked selfRedeem 150 148)) selfRedeem
    150 148 (Chain.runAll_reachable _ _) rfl
  exact ⟨_, taken, conserves.1 _ taken⟩

end Upshift
