import Upshift.Address
import Upshift.Errors
import Upshift.Lib.Guard

namespace Upshift
open Guard

def feeRateDenominatorValue : Nat := 1000000
def bpsDenominator : Nat := 10000
def extraShares : Nat := 1000000
def minShareOffset : Nat := 1000
def maxShareOffset : Nat := 1000000
def minSupplyMultiple : Nat := 100

/-- The fields of the vault account that some instruction reads. -/
structure VaultState where
  operator : Pubkey
  admin : Pubkey
  shareMint : Pubkey
  depositMint : Pubkey
  feeRecipient : Pubkey
  withdrawalFee : Nat
  localAum : Nat
  deployedAum : Nat
  aumIncreaseLimit : Nat
  aumDecreaseLimit : Nat
  vaultVersion : Nat
  paused : Bool
  shareOffset : Nat
  withdrawalQueueAuthority : Pubkey
  subaccountCount : Nat
  deployedPrincipal : Nat
  deriving DecidableEq

/-- The account after `VaultState::init`. What it leaves unassigned reads as the zero the
allocation starts with. -/
def VaultState.init (operator admin shareMint depositMint feeRecipient : Pubkey)
    (withdrawalFee vaultVersion shareOffset : Nat) : VaultState where
  operator := operator
  admin := admin
  shareMint := shareMint
  depositMint := depositMint
  feeRecipient := feeRecipient
  withdrawalFee := withdrawalFee
  localAum := 0
  deployedAum := 0
  aumIncreaseLimit := 20
  aumDecreaseLimit := 20
  vaultVersion := vaultVersion
  paused := false
  shareOffset := shareOffset
  withdrawalQueueAuthority := .default
  subaccountCount := 0
  deployedPrincipal := 0

def VaultState.withdrawalQueue (v : VaultState) : Option Pubkey :=
  if v.withdrawalQueueAuthority ≠ .default then some v.withdrawalQueueAuthority else none

def VaultState.requiresSubaccount (v : VaultState) : Bool := 0 < v.subaccountCount

/-- `share_offset()`: the stored field, with the legacy zero read as the default. -/
def VaultState.resolvedShareOffset (v : VaultState) : Nat :=
  match v.shareOffset with
  | 0 => extraShares
  | offset => offset

/-- A vault account as an older layout stored it. The default offset was not written, nor the principal while no
destination was registered: both read as zero. -/
structure VaultState.StoredBefore (v v₀ : VaultState) : Prop where
  offset : v.shareOffset = v₀.shareOffset ∨ v.shareOffset = 0 ∧ v₀.shareOffset = extraShares
  principal : v.deployedPrincipal = v₀.deployedPrincipal ∨ v.deployedPrincipal = 0 ∧ v₀.subaccountCount = 0
  rest : v = { v₀ with shareOffset := v.shareOffset, deployedPrincipal := v.deployedPrincipal }

def VaultState.minFirstDepositFor (decimals offset : Nat) : Nat :=
  let byDecimals := if decimals ≤ 3 then 1 else min (10 ^ (decimals - 3)) u64Max
  let byOffset := (tryFrom u64Max (min (minSupplyMultiple * offset) u128Max)).getD u64Max
  max byDecimals byOffset

def VaultState.minFirstDeposit (v : VaultState) (decimals : Nat) : Nat :=
  VaultState.minFirstDepositFor decimals v.resolvedShareOffset

def VaultState.minOpeningSupply (v : VaultState) : Nat :=
  (tryFrom u64Max (min (minSupplyMultiple * v.resolvedShareOffset) u128Max)).getD u64Max

/-- The loop of `is_valid_share_offset`, from `p` up by tens. It leaves `u128` after at most 39
turns, so the 40 it is given are never used up. -/
def reachesByTens (offset : Nat) : Nat → Nat → Bool
  | 0, _ => false
  | fuel + 1, p =>
    if p < offset then
      match checkedMul u128Max p 10 with
      | some next => reachesByTens offset fuel next
      | none => false
    else p == offset

def VaultState.isValidShareOffset (offset : Nat) : Bool :=
  if ¬(minShareOffset ≤ offset ∧ offset ≤ maxShareOffset) then false
  else reachesByTens offset 40 1

/-- The offsets a vault account can store: a permitted one, or the zero of an account older than the field. -/
def VaultState.StoresOffset (v : VaultState) : Prop :=
  v.shareOffset = 0 ∨ VaultState.isValidShareOffset v.shareOffset

theorem VaultState.StoresOffset.congr {v v' : VaultState} (stores : v.StoresOffset)
    (same : v'.shareOffset = v.shareOffset) : v'.StoresOffset := by
  unfold VaultState.StoresOffset
  rw [same]
  exact stores

theorem VaultState.StoresOffset.permitted {v : VaultState} (stores : v.StoresOffset) :
    VaultState.isValidShareOffset v.resolvedShareOffset := by
  unfold VaultState.resolvedShareOffset
  split
  · decide +kernel
  · exact stores.resolve_left ‹_›

def VaultState.totalAssets (v : VaultState) : Result Nat :=
  okOr (checkedAdd u64Max v.localAum v.deployedAum) (.vault .mathError)

theorem VaultState.totalAssets_eq_ok {v : VaultState} {total : Nat} :
    v.totalAssets = .ok total ↔ v.localAum + v.deployedAum ≤ u64Max ∧ v.localAum + v.deployedAum = total := by
  simp only [VaultState.totalAssets, okOr_eq_ok, checkedAdd_eq_some]

def VaultState.sharesForDepositWithOffset (supply totalAssets amount offset : Nat) : Result Nat := do
  require (0 < totalAssets ∨ supply = 0) (.vault .sharePriceUndefined)
  let sharesEff ← okOr (checkedAdd u128Max supply offset) (.vault .mathError)
  let assetsEff ← okOr (checkedAdd u128Max totalAssets offset) (.vault .mathError)
  let scaled ← okOr (checkedMul u128Max amount sharesEff) (.vault .mathError)
  let withOffsets ← okOr (checkedDiv scaled assetsEff) (.vault .mathError)
  let shares ← if totalAssets = 0 then pure withOffsets else do
    let scaled ← okOr (checkedMul u128Max amount supply) (.vault .mathError)
    let proRata ← okOr (checkedDiv scaled totalAssets) (.vault .mathError)
    pure (max withOffsets proRata)
  okOr (tryFrom u64Max shares) (.vault .numberOverflow)

def VaultState.assetsForRedeemWithOffset (supply totalAssets shares offset : Nat) : Result Nat := do
  require (0 < totalAssets ∨ supply = 0) (.vault .sharePriceUndefined)
  let sharesEff ← okOr (checkedAdd u128Max supply offset) (.vault .mathError)
  let assetsEff ← okOr (checkedAdd u128Max totalAssets offset) (.vault .mathError)
  let scaled ← okOr (checkedMul u128Max shares assetsEff) (.vault .mathError)
  let withOffsets ← okOr (checkedDiv scaled sharesEff) (.vault .mathError)
  let capped ← if supply = 0 then pure withOffsets else do
    let scaled ← okOr (checkedMul u128Max shares totalAssets) (.vault .mathError)
    let proRata ← okOr (checkedDiv scaled supply) (.vault .mathError)
    pure (min withOffsets proRata)
  okOr (tryFrom u64Max capped) (.vault .numberOverflow)

def VaultState.sharesForDeposit (v : VaultState) (supply totalAssets amount : Nat) : Result Nat :=
  VaultState.sharesForDepositWithOffset supply totalAssets amount v.resolvedShareOffset

def VaultState.assetsForRedeem (v : VaultState) (supply totalAssets shares : Nat) : Result Nat :=
  VaultState.assetsForRedeemWithOffset supply totalAssets shares v.resolvedShareOffset

/-- One permitted operator destination. -/
structure Subaccount where
  vaultState : Pubkey
  address : Pubkey
  principal : Nat
  deriving DecidableEq

structure NominatedAdmin where
  nominatedAdmin : Pubkey
  validUntil : Int
  deriving DecidableEq

/-- The validity is a day, added with overflow checks. -/
def NominatedAdmin.init (nominatedAdmin : Pubkey) (now : Int) : Result NominatedAdmin := do
  let validUntil := now + 24 * 60 * 60
  require (validUntil ≤ i64Max) .arithmetic
  return ⟨nominatedAdmin, validUntil⟩

def NominatedAdmin.isNominatedAdmin (n : NominatedAdmin) (key : Pubkey) : Bool := n.nominatedAdmin = key

def NominatedAdmin.isStillValid (n : NominatedAdmin) (now : Int) : Bool := n.validUntil > now

def NominatedAdmin.validAcceptNomination (n : NominatedAdmin) (signer : Pubkey) (now : Int) :
    Result Unit := do
  require (n.isNominatedAdmin signer) (.vault .invalidNominatedAdmin)
  require (n.isStillValid now) (.vault .nominationExpired)

structure ProgramConfig where
  authority : Pubkey
  deriving DecidableEq

end Upshift
