import Upshift.Chain

namespace Upshift
open Guard KeyedStore

structure Redeem where
  vaultState : Pubkey
  vaultDepositAta : Pubkey
  senderTokenAccount : Pubkey
  senderShareAccount : Pubkey
  feeRecipientAccount : Pubkey
  shareMint : Pubkey
  depositMint : Pubkey
  signer : Pubkey
  deriving DecidableEq

def Redeem.accounts (a : Redeem) (c : Chain) : Result (VaultState × Nat) := do
  let v ← c.vaultAt a.vaultState a.depositMint
  let _ ← c.reserveAt a.vaultDepositAta a.vaultState a.depositMint v.vaultVersion
  let _ ← c.tokenAccount a.senderTokenAccount a.depositMint a.signer
  let _ ← c.tokenAccount a.senderShareAccount a.shareMint a.signer
  let _ ← c.tokenAccount a.feeRecipientAccount a.depositMint v.feeRecipient
  let m ← c.shareMintAt a.shareMint a.vaultState a.depositMint v.vaultVersion
  let _ ← c.sameDecimals a.shareMint a.depositMint
  return (v, m.supply)

def Redeem.ceilDiv (numerator denominator : Nat) : Option Nat := do
  let sum ← checkedAdd u128Max numerator denominator
  let less ← checkedSub sum 1
  checkedDiv less denominator

/-- The rounded-up withdrawal fee on a gross amount. -/
def Redeem.fees (assets withdrawalFee : Nat) : Result Nat := do
  let feeNumerator ← okOr (checkedMul u128Max assets withdrawalFee) (.vault .mathError)
  let fees ← okOr (Redeem.ceilDiv feeNumerator feeRateDenominatorValue) (.vault .mathError)
  okOr (tryFrom u64Max fees) (.vault .numberOverflow)

/-- The calls of the token program: the burn, the fee and the payment. -/
def Redeem.interactions (a : Redeem) (b : Bank) (shares fees finalAmount : Nat) : Result Bank := do
  let burned ← b.burnChecked a.senderShareAccount a.shareMint a.signer shares
  let paidFee ← burned.transferChecked a.vaultDepositAta a.depositMint a.feeRecipientAccount a.vaultState fees
  paidFee.transferChecked a.vaultDepositAta a.depositMint a.senderTokenAccount a.vaultState finalAmount

def Redeem.handlerChecked (c : Chain) (a : Redeem) (shares minAssetsOut : Nat) : Result Chain := do
  let (v, supply) ← a.accounts c
  require (0 < shares) (.vault .zeroAmount)
  require (v.paused = false) (.vault .vaultPaused)
  require (v.withdrawalQueue = none ∨ v.withdrawalQueue = some a.signer) (.vault .withdrawalQueueRequired)
  let totalAssets ← v.totalAssets
  let assets ← v.assetsForRedeem supply totalAssets shares
  let fees ← Redeem.fees assets v.withdrawalFee
  let finalAmount ← okOr (checkedSub assets fees) (.vault .mathError)
  require (minAssetsOut ≤ finalAmount) (.vault .slippageExceeded)
  require (0 < assets) (.vault .zeroAmount)
  require (assets ≤ v.localAum) (.vault .notEnoughLiquidity)
  let localAum ← okOr (checkedSub v.localAum assets) (.vault .mathError)
  let paid ← a.interactions c.bank shares fees finalAmount
  return { c with
    bank := paid
    vaults := c.vaults.insert a.vaultState { v with localAum := localAum } }

def Redeem.handler (c : Chain) (a : Redeem) (shares : Nat) : Result Chain :=
  Redeem.handlerChecked c a shares 0

/-- The share of a gross amount that is charged, rounded up. -/
def Redeem.feeOf (assets withdrawalFee : Nat) : Nat := (assets * withdrawalFee + 999999) / 1000000

theorem Redeem.ceilDiv_eq_some {numerator denominator quotient : Nat} :
    Redeem.ceilDiv numerator denominator = some quotient ↔ numerator + denominator ≤ u128Max ∧
      1 ≤ numerator + denominator ∧ denominator ≠ 0 ∧ (numerator + denominator - 1) / denominator = quotient := by
  simp only [Redeem.ceilDiv, Option.bind_eq_bind, Option.bind_eq_some_iff, checkedAdd_eq_some, checkedSub_eq_some,
    checkedDiv_eq_some]
  constructor
  · rintro ⟨_, ⟨fits, rfl⟩, _, ⟨positive, rfl⟩, some, rfl⟩
    exact ⟨fits, positive, some, rfl⟩
  · rintro ⟨fits, positive, some, rfl⟩
    exact ⟨_, ⟨fits, rfl⟩, _, ⟨positive, rfl⟩, some, rfl⟩

theorem Redeem.feeOf_eq (assets withdrawalFee : Nat) :
    (assets * withdrawalFee + feeRateDenominatorValue - 1) / feeRateDenominatorValue =
      Redeem.feeOf assets withdrawalFee := by
  unfold feeRateDenominatorValue Redeem.feeOf
  omega

theorem Redeem.fees_eq_ok {assets withdrawalFee fees : Nat} (charged : Redeem.fees assets withdrawalFee = .ok fees) :
    fees = Redeem.feeOf assets withdrawalFee := by
  simp only [Redeem.fees, bind_eq_ok, okOr_eq_ok, checkedMul_eq_some, Redeem.ceilDiv_eq_some,
    tryFrom_eq_some] at charged
  obtain ⟨_, ⟨_, rfl⟩, _, ⟨_, _, _, rfl⟩, _, rfl⟩ := charged
  exact Redeem.feeOf_eq assets withdrawalFee

/-- A rate below a tenth charges no more than the amount. -/
theorem Redeem.feeOf_le {assets withdrawalFee : Nat} (bounded : withdrawalFee < 100000) :
    Redeem.feeOf assets withdrawalFee ≤ assets := by
  have scaled : assets * withdrawalFee ≤ assets * 100000 := Nat.mul_le_mul_left _ (Nat.le_of_lt bounded)
  unfold Redeem.feeOf
  omega

/-- The fee on an amount in range is always defined. -/
theorem Redeem.fees_defined {assets withdrawalFee : Nat} (fits : assets ≤ u64Max) (bounded : withdrawalFee < 100000) :
    Redeem.fees assets withdrawalFee = .ok (Redeem.feeOf assets withdrawalFee) := by
  have scaled : assets * withdrawalFee ≤ assets * 100000 := Nat.mul_le_mul_left _ (Nat.le_of_lt bounded)
  have small : assets * withdrawalFee + feeRateDenominatorValue ≤ u128Max := by
    simp only [u64Max, u128Max, feeRateDenominatorValue] at fits ⊢
    omega
  have positive : 1 ≤ assets * withdrawalFee + feeRateDenominatorValue := by
    simp only [feeRateDenominatorValue]
    omega
  have within := Nat.le_trans (Redeem.feeOf_le bounded) fits
  simp only [Redeem.fees, bind_eq_ok, okOr_eq_ok, checkedMul_eq_some, Redeem.ceilDiv_eq_some, tryFrom_eq_some]
  exact ⟨_, ⟨Nat.le_trans (Nat.le_add_right _ _) small, rfl⟩, _,
    ⟨small, positive, by decide, Redeem.feeOf_eq assets withdrawalFee⟩, within, rfl⟩

/-- What the account constraints establish. -/
structure Redeem.Valid (a : Redeem) (c : Chain) (v : VaultState) (m : Mint) : Prop where
  vault : c.vaults.lookup a.vaultState = some v
  key : a.vaultState = .vaultState a.depositMint v.vaultVersion
  reserveKey : a.vaultDepositAta = .vaultToken a.depositMint v.vaultVersion
  reserve : ∃ t, c.bank.accounts.lookup a.vaultDepositAta = some t ∧ t.owner = a.vaultState ∧
    t.mint = a.depositMint
  senderToken : ∃ t, c.bank.accounts.lookup a.senderTokenAccount = some t ∧ t.owner = a.signer ∧
    t.mint = a.depositMint
  senderShare : ∃ t, c.bank.accounts.lookup a.senderShareAccount = some t ∧ t.owner = a.signer ∧
    t.mint = a.shareMint
  feeRecipient : ∃ t, c.bank.accounts.lookup a.feeRecipientAccount = some t ∧ t.owner = v.feeRecipient ∧
    t.mint = a.depositMint
  shareMint : c.bank.mints.lookup a.shareMint = some m
  shareMintKey : a.shareMint = .shareMint a.depositMint v.vaultVersion
  mintAuthority : m.mintAuthority = some a.vaultState
  depositMint : ∃ d, c.bank.mints.lookup a.depositMint = some d ∧ m.decimals = d.decimals

theorem Redeem.accounts_eq_ok {a : Redeem} {c : Chain} {v : VaultState} {supply : Nat} :
    a.accounts c = .ok (v, supply) ↔ ∃ m, a.Valid c v m ∧ m.supply = supply := by
  simp only [Redeem.accounts, bind_eq_ok, Chain.vaultAt_eq_ok, Chain.reserveAt_eq_ok, Chain.tokenAccount_eq_ok,
    Chain.shareMintAt_eq_ok, Chain.sameDecimals_eq_ok, pure_eq_ok, Prod.mk.injEq]
  constructor
  · rintro ⟨v, ⟨vault, _, key⟩, reserve, ⟨reserveKey, atReserve⟩, sender, atSender, share, atShare, fee, atFee,
      m, ⟨shareMint, shareMintKey, authority⟩, _, ⟨m', d, atMint', atDeposit, decimals, _⟩, rfl, rfl⟩
    cases Option.some.inj (shareMint.symm.trans atMint')
    exact ⟨m, ⟨vault, key, reserveKey, ⟨_, atReserve⟩, ⟨_, atSender⟩, ⟨_, atShare⟩, ⟨_, atFee⟩, shareMint,
      shareMintKey, authority, ⟨d, atDeposit, decimals⟩⟩, rfl⟩
  · rintro ⟨m, valid, rfl⟩
    obtain ⟨reserve, atReserve⟩ := valid.reserve
    obtain ⟨sender, atSender⟩ := valid.senderToken
    obtain ⟨share, atShare⟩ := valid.senderShare
    obtain ⟨fee, atFee⟩ := valid.feeRecipient
    obtain ⟨d, atDeposit, decimals⟩ := valid.depositMint
    exact ⟨v, ⟨valid.vault, ⟨d, atDeposit⟩, valid.key⟩, reserve, ⟨valid.reserveKey, atReserve⟩, sender, atSender,
      share, atShare, fee, atFee, m, ⟨valid.shareMint, valid.shareMintKey, valid.mintAuthority⟩, _,
      ⟨m, d, valid.shareMint, atDeposit, decimals, rfl⟩, rfl, rfl⟩

theorem Redeem.accounts_fails {a : Redeem} {c : Chain} : FailsWith Error.OfAnchor (a.accounts c) := by
  refine .bind Chain.vaultAt_fails fun _ _ => ?_
  refine .bind Chain.reserveAt_fails fun _ _ => ?_
  refine .bind Chain.tokenAccount_fails fun _ _ => ?_
  refine .bind Chain.tokenAccount_fails fun _ _ => ?_
  refine .bind Chain.tokenAccount_fails fun _ _ => ?_
  refine .bind Chain.shareMintAt_fails fun _ _ => ?_
  exact .bind Chain.sameDecimals_fails fun _ _ => .pure _

/-- A successful redemption of `shares` for a gross amount of `assets`. -/
structure Redeem.Ran (c : Chain) (a : Redeem) (shares minAssetsOut : Nat) (v : VaultState) (m : Mint)
    (assets fees : Nat) (paid : Bank) : Prop where
  valid : a.Valid c v m
  positive : 0 < shares
  running : v.paused = false
  gate : v.withdrawalQueue = none ∨ v.withdrawalQueue = some a.signer
  total : v.localAum + v.deployedAum ≤ u64Max
  quoted : v.assetsForRedeem m.supply (v.localAum + v.deployedAum) shares = .ok assets
  charged : Redeem.fees assets v.withdrawalFee = .ok fees
  afforded : fees ≤ assets
  bounded : minAssetsOut ≤ assets - fees
  some : 0 < assets
  liquid : assets ≤ v.localAum
  interactions : a.interactions c.bank shares fees (assets - fees) = .ok paid

def Redeem.after (c : Chain) (a : Redeem) (v : VaultState) (assets : Nat) (paid : Bank) : Chain :=
  { c with bank := paid, vaults := c.vaults.insert a.vaultState { v with localAum := v.localAum - assets } }

theorem Redeem.handlerChecked_eq_ok {c c' : Chain} {a : Redeem} {shares minAssetsOut : Nat} :
    Redeem.handlerChecked c a shares minAssetsOut = .ok c' ↔ ∃ v m assets fees paid,
      Redeem.Ran c a shares minAssetsOut v m assets fees paid ∧ c' = Redeem.after c a v assets paid := by
  simp only [Redeem.handlerChecked, bind_eq_ok, Prod.exists, Redeem.accounts_eq_ok, require_eq_ok,
    VaultState.totalAssets_eq_ok, okOr_eq_ok, checkedSub_eq_some, pure_eq_ok, exists_const]
  constructor
  · rintro ⟨v, _, ⟨m, valid, rfl⟩, positive, running, gate, _, ⟨total, rfl⟩, assets, quoted, fees, charged, _,
      ⟨afforded, rfl⟩, bounded, some, liquid, _, ⟨_, rfl⟩, paid, interactions, rfl⟩
    exact ⟨v, m, assets, fees, paid, ⟨valid, positive, running, gate, total, quoted, charged, afforded, bounded,
      some, liquid, interactions⟩, rfl⟩
  · rintro ⟨v, m, assets, fees, paid, ran, rfl⟩
    exact ⟨v, m.supply, ⟨m, ran.valid, rfl⟩, ran.positive, ran.running, ran.gate, _, ⟨ran.total, rfl⟩, assets,
      ran.quoted, fees, ran.charged, _, ⟨ran.afforded, rfl⟩, ran.bounded, ran.some, ran.liquid, _,
      ⟨ran.liquid, rfl⟩, paid, ran.interactions, rfl⟩

end Upshift
