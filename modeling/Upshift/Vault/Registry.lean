import Upshift.Vault.Operator

namespace Upshift
open Guard KeyedStore

/-- The accounts of the three registry instructions. -/
structure SubaccountAdmin where
  vaultState : Pubkey
  subaccount : Pubkey
  depositMint : Pubkey
  subaccountAta : Pubkey
  admin : Pubkey
  deriving DecidableEq

def RegisterSubaccount.handler (c : Chain) (a : SubaccountAdmin) (address : Pubkey) : Result Chain := do
  let v ← c.vaultAt a.vaultState a.depositMint
  require (a.subaccount = .subaccount a.vaultState address) (.anchor .constraintSeeds)
  require (c.subaccounts.lookup a.subaccount = none) (.anchor .accountAlreadyInUse)
  let ata ← c.associatedAccount a.subaccountAta a.depositMint address
  require (v.admin = a.admin) (.vault .notAdmin)
  let inherited := if v.subaccountCount = 0 then v.deployedPrincipal else 0
  require (ata.delegate = some a.vaultState ∧ 0 < ata.delegatedAmount ∧ inherited ≤ ata.delegatedAmount)
    (.vault .subaccountDelegationMissing)
  require (address ≠ v.operator) (.vault .invalidSubaccount)
  let subaccountCount ← okOr (checkedAdd u64Max v.subaccountCount 1) (.vault .numberOverflow)
  return { c with
    subaccounts := c.subaccounts.insert a.subaccount ⟨a.vaultState, address, inherited⟩
    vaults := c.vaults.insert a.vaultState { v with subaccountCount := subaccountCount } }

def DeregisterSubaccount.handler (c : Chain) (a : SubaccountAdmin) : Result Chain := do
  let v ← c.vaultAt a.vaultState a.depositMint
  let s ← c.subaccountAt a.subaccount a.vaultState
  require (s.vaultState = a.vaultState) (.vault .invalidSubaccount)
  require (v.admin = a.admin) (.vault .notAdmin)
  require (s.principal = 0) (.vault .subaccountNotEmpty)
  return { c with
    subaccounts := c.subaccounts.erase a.subaccount
    vaults := c.vaults.insert a.vaultState { v with subaccountCount := v.subaccountCount - 1 } }

def SettleSubaccountLoss.handler (c : Chain) (a : SubaccountAdmin) (amount : Nat) : Result Chain := do
  let v ← c.vaultAt a.vaultState a.depositMint
  let s ← c.subaccountAt a.subaccount a.vaultState
  require (s.vaultState = a.vaultState) (.vault .invalidSubaccount)
  let ata ← c.associatedAccount a.subaccountAta a.depositMint s.address
  require (v.admin = a.admin) (.vault .notAdmin)
  require (0 < amount) (.vault .zeroAmount)
  require (amount ≤ s.principal - ata.amount) (.vault .lossExceedsShortfall)
  let principal ← okOr (checkedSub s.principal amount) .arithmetic
  return { c with
    subaccounts := c.subaccounts.insert a.subaccount { s with principal := principal }
    vaults := c.vaults.insert a.vaultState { v with deployedPrincipal := v.deployedPrincipal - amount } }

/-- A successful registration. -/
structure RegisterSubaccount.Ran (c : Chain) (a : SubaccountAdmin) (address : Pubkey) (v : VaultState)
    (ata : TokenAccount) : Prop where
  vault : c.vaults.lookup a.vaultState = some v
  key : a.vaultState = .vaultState a.depositMint v.vaultVersion
  admin : v.admin = a.admin
  entryKey : a.subaccount = .subaccount a.vaultState address
  fresh : c.subaccounts.lookup a.subaccount = none
  account : c.bank.accounts.lookup a.subaccountAta = some ata ∧ ata.owner = address ∧ ata.mint = a.depositMint ∧
    a.subaccountAta = .associatedToken address a.depositMint
  delegation : ata.delegate = some a.vaultState ∧ 0 < ata.delegatedAmount ∧
    (if v.subaccountCount = 0 then v.deployedPrincipal else 0) ≤ ata.delegatedAmount
  different : address ≠ v.operator
  fits : v.subaccountCount + 1 ≤ u64Max

def RegisterSubaccount.after (c : Chain) (a : SubaccountAdmin) (address : Pubkey) (v : VaultState) : Chain :=
  { c with
    subaccounts := c.subaccounts.insert a.subaccount
      ⟨a.vaultState, address, if v.subaccountCount = 0 then v.deployedPrincipal else 0⟩
    vaults := c.vaults.insert a.vaultState { v with subaccountCount := v.subaccountCount + 1 } }

theorem RegisterSubaccount.handler_eq_ok {c c' : Chain} {a : SubaccountAdmin} {address : Pubkey}
    (ran : RegisterSubaccount.handler c a address = .ok c') :
    ∃ v ata, RegisterSubaccount.Ran c a address v ata ∧ c' = RegisterSubaccount.after c a address v := by
  simp only [RegisterSubaccount.handler, bind_eq_ok, Chain.vaultAt_eq_ok, Chain.associatedAccount_eq_ok,
    okOr_eq_ok, checkedAdd_eq_some, require_eq_ok, pure_eq_ok, exists_const] at ran
  obtain ⟨v, ⟨vault, _, key⟩, entryKey, fresh, ata, atAccount, admin, delegation, different, _, ⟨fits, rfl⟩,
    rfl⟩ := ran
  exact ⟨v, ata, ⟨vault, key, admin, entryKey, fresh, atAccount, delegation, different, fits⟩, rfl⟩

/-- A successful deregistration. -/
structure DeregisterSubaccount.Ran (c : Chain) (a : SubaccountAdmin) (v : VaultState) (s : Subaccount) :
    Prop where
  vault : c.vaults.lookup a.vaultState = some v
  key : a.vaultState = .vaultState a.depositMint v.vaultVersion
  admin : v.admin = a.admin
  entry : c.subaccounts.lookup a.subaccount = some s
  entryKey : a.subaccount = .subaccount a.vaultState s.address
  entryVault : s.vaultState = a.vaultState
  empty : s.principal = 0

def DeregisterSubaccount.after (c : Chain) (a : SubaccountAdmin) (v : VaultState) : Chain :=
  { c with
    subaccounts := c.subaccounts.erase a.subaccount
    vaults := c.vaults.insert a.vaultState { v with subaccountCount := v.subaccountCount - 1 } }

theorem DeregisterSubaccount.handler_eq_ok {c c' : Chain} {a : SubaccountAdmin}
    (ran : DeregisterSubaccount.handler c a = .ok c') :
    ∃ v s, DeregisterSubaccount.Ran c a v s ∧ c' = DeregisterSubaccount.after c a v := by
  simp only [DeregisterSubaccount.handler, bind_eq_ok, Chain.vaultAt_eq_ok, Chain.subaccountAt_eq_ok,
    require_eq_ok, pure_eq_ok, exists_const] at ran
  obtain ⟨v, ⟨vault, _, key⟩, s, ⟨entry, entryKey⟩, entryVault, admin, empty, rfl⟩ := ran
  exact ⟨v, s, ⟨vault, key, admin, entry, entryKey, entryVault, empty⟩, rfl⟩

/-- A successful settlement. -/
structure SettleSubaccountLoss.Ran (c : Chain) (a : SubaccountAdmin) (amount : Nat) (v : VaultState)
    (s : Subaccount) (ata : TokenAccount) : Prop where
  vault : c.vaults.lookup a.vaultState = some v
  key : a.vaultState = .vaultState a.depositMint v.vaultVersion
  admin : v.admin = a.admin
  entry : c.subaccounts.lookup a.subaccount = some s
  entryKey : a.subaccount = .subaccount a.vaultState s.address
  entryVault : s.vaultState = a.vaultState
  account : c.bank.accounts.lookup a.subaccountAta = some ata ∧ ata.owner = s.address ∧ ata.mint = a.depositMint ∧
    a.subaccountAta = .associatedToken s.address a.depositMint
  positive : 0 < amount
  shortfall : amount ≤ s.principal - ata.amount

def SettleSubaccountLoss.after (c : Chain) (a : SubaccountAdmin) (amount : Nat) (v : VaultState)
    (s : Subaccount) : Chain :=
  { c with
    subaccounts := c.subaccounts.insert a.subaccount { s with principal := s.principal - amount }
    vaults := c.vaults.insert a.vaultState { v with deployedPrincipal := v.deployedPrincipal - amount } }

theorem SettleSubaccountLoss.handler_eq_ok {c c' : Chain} {a : SubaccountAdmin} {amount : Nat}
    (ran : SettleSubaccountLoss.handler c a amount = .ok c') :
    ∃ v s ata, SettleSubaccountLoss.Ran c a amount v s ata ∧ c' = SettleSubaccountLoss.after c a amount v s := by
  simp only [SettleSubaccountLoss.handler, bind_eq_ok, Chain.vaultAt_eq_ok, Chain.subaccountAt_eq_ok,
    Chain.associatedAccount_eq_ok, require_eq_ok, okOr_eq_ok, checkedSub_eq_some, pure_eq_ok, exists_const] at ran
  obtain ⟨v, ⟨vault, _, key⟩, s, ⟨entry, entryKey⟩, entryVault, ata, atAccount, admin, positive, shortfall, _,
    ⟨_, rfl⟩, rfl⟩ := ran
  exact ⟨v, s, ata, ⟨vault, key, admin, entry, entryKey, entryVault, atAccount, positive, shortfall⟩, rfl⟩

end Upshift
