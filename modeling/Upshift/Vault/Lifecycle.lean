import Upshift.Chain

namespace Upshift
open Guard KeyedStore

/-- `programConfig` exists once and is gated by the program's upgrade authority. -/
def InitializeConfig.handler (c : Chain) (upgradeAuthority authority : Pubkey) : Result Chain := do
  require (c.upgradeAuthority = some upgradeAuthority) (.vault .notProtocolAuthority)
  require (c.config = none) (.anchor .accountAlreadyInUse)
  require (authority ≠ .default) (.vault .invalidAuthority)
  return { c with config := some ⟨authority⟩ }

def SetConfigAuthority.handler (c : Chain) (authority newAuthority : Pubkey) : Result Chain := do
  let config ← okOr c.config (.anchor .accountNotInitialized)
  require (config.authority = authority) (.vault .notProtocolAuthority)
  require (newAuthority ≠ .default) (.vault .invalidAuthority)
  return { c with config := some { config with authority := newAuthority } }

def OverrideConfigAuthority.handler (c : Chain) (upgradeAuthority newAuthority : Pubkey) : Result Chain := do
  let config ← okOr c.config (.anchor .accountNotInitialized)
  require (c.upgradeAuthority = some upgradeAuthority) (.vault .notProtocolAuthority)
  require (newAuthority ≠ .default) (.vault .invalidAuthority)
  return { c with config := some { config with authority := newAuthority } }

structure Initialize where
  signer : Pubkey
  depositMint : Pubkey
  vaultState : Pubkey
  shareMint : Pubkey
  vaultTokenAta : Pubkey
  deriving DecidableEq

/-- The three `init` accounts live at fresh derived addresses. -/
def Initialize.handler (c : Chain) (a : Initialize) (admin operator feeRecipient : Pubkey)
    (vaultVersion shareOffset : Nat) : Result Chain := do
  let config ← okOr c.config (.anchor .accountNotInitialized)
  require (config.authority = a.signer) (.vault .notProtocolAuthority)
  let deposit ← fetch c.bank.mints a.depositMint (.anchor .accountNotInitialized)
  require (a.vaultState = .vaultState a.depositMint vaultVersion) (.anchor .constraintSeeds)
  require (a.shareMint = .shareMint a.depositMint vaultVersion) (.anchor .constraintSeeds)
  require (a.vaultTokenAta = .vaultToken a.depositMint vaultVersion) (.anchor .constraintSeeds)
  require (c.vaults.lookup a.vaultState = none) (.anchor .accountAlreadyInUse)
  let withMint ← c.bank.initializeMint a.shareMint deposit.program (some a.vaultState) deposit.decimals
    none []
  let withReserve ← withMint.initializeAccount a.vaultTokenAta a.depositMint a.vaultState
  require (VaultState.isValidShareOffset shareOffset) (.vault .invalidShareOffset)
  return { c with
    bank := withReserve
    vaults := c.vaults.insert a.vaultState
      (VaultState.init operator admin a.shareMint a.depositMint feeRecipient 0 vaultVersion shareOffset) }

/-- A successful initialization. -/
structure Initialize.Ran (c : Chain) (a : Initialize) (vaultVersion shareOffset : Nat) (deposit : Mint)
    (withMint withReserve : Bank) : Prop where
  config : c.config = some ⟨a.signer⟩
  depositMint : c.bank.mints.lookup a.depositMint = some deposit
  key : a.vaultState = .vaultState a.depositMint vaultVersion
  shareMintKey : a.shareMint = .shareMint a.depositMint vaultVersion
  reserveKey : a.vaultTokenAta = .vaultToken a.depositMint vaultVersion
  fresh : c.vaults.lookup a.vaultState = none
  creates : c.bank.initializeMint a.shareMint deposit.program (some a.vaultState) deposit.decimals none [] =
    .ok withMint
  reserves : withMint.initializeAccount a.vaultTokenAta a.depositMint a.vaultState = .ok withReserve
  offset : VaultState.isValidShareOffset shareOffset

def Initialize.after (c : Chain) (a : Initialize) (admin operator feeRecipient : Pubkey)
    (vaultVersion shareOffset : Nat) (withReserve : Bank) : Chain :=
  { c with
    bank := withReserve
    vaults := c.vaults.insert a.vaultState
      (VaultState.init operator admin a.shareMint a.depositMint feeRecipient 0 vaultVersion shareOffset) }

theorem Initialize.handler_eq_ok {c c' : Chain} {a : Initialize} {admin operator feeRecipient : Pubkey}
    {vaultVersion shareOffset : Nat}
    (ran : Initialize.handler c a admin operator feeRecipient vaultVersion shareOffset = .ok c') :
    ∃ deposit withMint withReserve,
      Initialize.Ran c a vaultVersion shareOffset deposit withMint withReserve ∧
        c' = Initialize.after c a admin operator feeRecipient vaultVersion shareOffset withReserve := by
  simp only [Initialize.handler, bind_eq_ok, okOr_eq_ok, fetch_eq_ok, require_eq_ok, pure_eq_ok,
    exists_const] at ran
  obtain ⟨⟨_⟩, config, rfl, deposit, depositMint, key, shareMintKey, reserveKey, fresh, withMint, first,
    withReserve, second, offset, rfl⟩ := ran
  exact ⟨deposit, withMint, withReserve, ⟨config, depositMint, key, shareMintKey, reserveKey, fresh, first, second,
    offset⟩, rfl⟩

structure CloseVault where
  vaultState : Pubkey
  shareMint : Pubkey
  vaultTokenAta : Pubkey
  depositMint : Pubkey
  admin : Pubkey
  deriving DecidableEq

def CloseVault.handler (c : Chain) (a : CloseVault) : Result Chain := do
  let v ← c.vaultAt a.vaultState a.depositMint
  let m ← c.shareMintAt a.shareMint a.vaultState a.depositMint v.vaultVersion
  let reserve ← c.reserveAt a.vaultTokenAta a.vaultState a.depositMint v.vaultVersion
  require (v.admin = a.admin) (.vault .notAdmin)
  require (m.supply = 0) (.vault .vaultNotEmpty)
  require (v.subaccountCount = 0) (.vault .vaultNotEmpty)
  require (reserve.amount = 0) (.vault .vaultNotEmpty)
  let closed ← c.bank.closeAccount a.vaultTokenAta a.vaultState
  let revoked ← closed.setMintAuthority a.shareMint a.vaultState none
  return { c with bank := revoked, vaults := c.vaults.erase a.vaultState }

/-- A successful closing. -/
structure CloseVault.Ran (c : Chain) (a : CloseVault) (v : VaultState) (m : Mint) (closed revoked : Bank) :
    Prop where
  vault : c.vaults.lookup a.vaultState = some v
  key : a.vaultState = .vaultState a.depositMint v.vaultVersion
  shareMint : c.bank.mints.lookup a.shareMint = some m
  shareMintKey : a.shareMint = .shareMint a.depositMint v.vaultVersion
  reserveKey : a.vaultTokenAta = .vaultToken a.depositMint v.vaultVersion
  admin : v.admin = a.admin
  retired : m.supply = 0
  registry : v.subaccountCount = 0
  reserve : ∃ t, c.bank.accounts.lookup a.vaultTokenAta = some t ∧ t.owner = a.vaultState ∧
    t.mint = a.depositMint ∧ t.amount = 0
  closes : c.bank.closeAccount a.vaultTokenAta a.vaultState = .ok closed
  revokes : closed.setMintAuthority a.shareMint a.vaultState none = .ok revoked

def CloseVault.after (c : Chain) (a : CloseVault) (revoked : Bank) : Chain :=
  { c with bank := revoked, vaults := c.vaults.erase a.vaultState }

theorem CloseVault.handler_eq_ok {c c' : Chain} {a : CloseVault} (ran : CloseVault.handler c a = .ok c') :
    ∃ v m closed revoked, CloseVault.Ran c a v m closed revoked ∧ c' = CloseVault.after c a revoked := by
  simp only [CloseVault.handler, bind_eq_ok, Chain.vaultAt_eq_ok, Chain.shareMintAt_eq_ok,
    Chain.reserveAt_eq_ok, require_eq_ok, pure_eq_ok, exists_const] at ran
  obtain ⟨v, ⟨vault, _, key⟩, m, ⟨shareMint, shareMintKey, _⟩, t, ⟨reserveKey, atReserve, owner, sameMint⟩, admin,
    retired, registry, empty, closed, closes, revoked, revokes, rfl⟩ := ran
  exact ⟨v, m, closed, revoked, ⟨vault, key, shareMint, shareMintKey, reserveKey, admin, retired, registry,
    ⟨t, atReserve, owner, sameMint, empty⟩, closes, revokes⟩, rfl⟩

end Upshift
