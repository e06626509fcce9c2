import Upshift.Queue.Requests
import Upshift.Vault.Admin

namespace Upshift
open Guard KeyedStore

structure InitializeQueue where
  vaultState : Pubkey
  admin : Pubkey
  depositMint : Pubkey
  shareMint : Pubkey
  queue : Pubkey
  escrowShares : Pubkey
  escrowAssets : Pubkey
  deriving DecidableEq

/-- `init_if_needed` on an associated account: one that exists must carry the same mint and
authority a fresh one would. -/
def Bank.initAssociatedIfNeeded (b : Bank) (account mint authority : Pubkey) : Result Bank := do
  require (account = .associatedToken authority mint) (.anchor .constraintAssociated)
  match b.accounts.lookup account with
  | none => b.initializeAccount account mint authority
  | some t => do
    require (t.owner = authority) (.anchor .constraintTokenOwner)
    require (t.mint = mint) (.anchor .constraintTokenMint)
    return b

def InitializeQueue.handler (c : Chain) (a : InitializeQueue) (cooldownSeconds : Nat) : Result Chain := do
  let v ← fetch c.vaults a.vaultState (.anchor .accountNotInitialized)
  require (a.queue = .withdrawalQueue a.vaultState) (.anchor .constraintSeeds)
  require (c.queues.lookup a.queue = none) (.anchor .accountAlreadyInUse)
  let withShares ← c.bank.initAssociatedIfNeeded a.escrowShares a.shareMint a.queue
  let withAssets ← withShares.initAssociatedIfNeeded a.escrowAssets a.depositMint a.queue
  require (v.admin = a.admin) (.queue .notVaultAdmin)
  require (a.depositMint = v.depositMint) (.anchor .constraintAddress)
  require (a.shareMint = v.shareMint) (.anchor .constraintAddress)
  let depositMint ← fetch c.bank.mints a.depositMint (.anchor .accountNotInitialized)
  let shareMint ← fetch c.bank.mints a.shareMint (.anchor .accountNotInitialized)
  requireSupportedDepositMint depositMint
  requireSupportedShareMint shareMint
  let q ← WithdrawalQueue.init a.vaultState a.depositMint a.shareMint a.escrowShares a.escrowAssets
    cooldownSeconds
  return { c with
    bank := withAssets
    queues := c.queues.insert a.queue q
    log := .queueInitialized q.vaultState a.queue q.depositMint q.shareMint q.escrowShares q.escrowAssets
      q.cooldownSeconds :: c.log }

theorem Bank.initAssociatedIfNeeded_eq_ok {b b' : Bank} {account mint authority : Pubkey}
    (ran : b.initAssociatedIfNeeded account mint authority = .ok b') :
    account = .associatedToken authority mint ∧
      (b.initializeAccount account mint authority = .ok b' ∨
        b' = b ∧ ∃ t, b.accounts.lookup account = some t ∧ t.owner = authority ∧ t.mint = mint) := by
  unfold Bank.initAssociatedIfNeeded at ran
  simp only [bind_eq_ok, require_eq_ok, exists_const] at ran
  obtain ⟨derived, ran⟩ := ran
  refine ⟨derived, ?_⟩
  split at ran
  · exact Or.inl ran
  · rename_i t found
    simp only [bind_eq_ok, require_eq_ok, pure_eq_ok, exists_const] at ran
    obtain ⟨owner, sameMint, rfl⟩ := ran
    exact Or.inr ⟨rfl, t, found, owner, sameMint⟩

/-- A successful initialization of a queue. -/
structure InitializeQueue.Ran (c : Chain) (a : InitializeQueue) (cooldownSeconds : Nat) (v : VaultState)
    (shareMint : Mint) (withShares withAssets : Bank) : Prop where
  vault : c.vaults.lookup a.vaultState = some v
  key : a.queue = .withdrawalQueue a.vaultState
  fresh : c.queues.lookup a.queue = none
  shares : c.bank.initAssociatedIfNeeded a.escrowShares a.shareMint a.queue = .ok withShares
  assets : withShares.initAssociatedIfNeeded a.escrowAssets a.depositMint a.queue = .ok withAssets
  admin : v.admin = a.admin
  depositMintKey : a.depositMint = v.depositMint
  shareMintKey : a.shareMint = v.shareMint
  atShareMint : c.bank.mints.lookup a.shareMint = some shareMint
  unfrozen : shareMint.freezeAuthority = none
  cooldown : cooldownSeconds ≤ maxCooldownSeconds

def InitializeQueue.record (a : InitializeQueue) (cooldownSeconds : Nat) : WithdrawalQueue where
  vaultState := a.vaultState
  depositMint := a.depositMint
  shareMint := a.shareMint
  escrowShares := a.escrowShares
  escrowAssets := a.escrowAssets
  cooldownSeconds := cooldownSeconds
  fulfillmentWindowSeconds := 0
  sequence := 0
  pendingRequests := 0
  pendingShares := 0

def InitializeQueue.after (c : Chain) (a : InitializeQueue) (cooldownSeconds : Nat) (withAssets : Bank) : Chain :=
  { c with
    bank := withAssets
    queues := c.queues.insert a.queue (a.record cooldownSeconds)
    log := .queueInitialized a.vaultState a.queue a.depositMint a.shareMint a.escrowShares a.escrowAssets
      cooldownSeconds :: c.log }

theorem InitializeQueue.handler_eq_ok {c c' : Chain} {a : InitializeQueue} {cooldownSeconds : Nat}
    (ran : InitializeQueue.handler c a cooldownSeconds = .ok c') :
    ∃ v shareMint withShares withAssets,
      InitializeQueue.Ran c a cooldownSeconds v shareMint withShares withAssets ∧
        c' = InitializeQueue.after c a cooldownSeconds withAssets := by
  simp only [InitializeQueue.handler, requireSupportedDepositMint, requireSupportedShareMint,
    WithdrawalQueue.init, bind_eq_ok, fetch_eq_ok, require_eq_ok, WithdrawalQueue.setCooldown_eq_ok, pure_eq_ok,
    exists_const] at ran
  obtain ⟨v, vault, key, fresh, withShares, shares, withAssets, assets, admin, depositMintKey, shareMintKey, _, _,
    m, shareMint, _, ⟨unfrozen, _⟩, _, ⟨cooldown, rfl⟩, rfl⟩ := ran
  exact ⟨v, m, withShares, withAssets, ⟨vault, key, fresh, shares, assets, admin, depositMintKey, shareMintKey,
    shareMint, unfrozen, cooldown⟩, rfl⟩

/-- The accounts of the two admin setters. -/
structure QueueAdmin where
  queue : Pubkey
  vaultState : Pubkey
  admin : Pubkey
  deriving DecidableEq

/-- A setter rewrites the queue alone and reports the whole configuration. -/
def QueueAdmin.update (a : QueueAdmin) (c : Chain) (change : WithdrawalQueue → Result WithdrawalQueue) :
    Result Chain := do
  let (q, v) ← c.queueOfVault a.queue a.vaultState
  requireVaultAdmin q a.vaultState v a.admin
  let changed ← change q
  return { c with
    queues := c.queues.insert a.queue changed
    log := .queueConfigUpdated changed.vaultState a.queue changed.cooldownSeconds
      changed.fulfillmentWindowSeconds :: c.log }

theorem QueueAdmin.update_eq_ok {a : QueueAdmin} {c c' : Chain}
    {change : WithdrawalQueue → Result WithdrawalQueue} (ran : a.update c change = .ok c') :
    ∃ q v q', c.queues.lookup a.queue = some q ∧ a.queue = .withdrawalQueue a.vaultState ∧
      q.vaultState = a.vaultState ∧ c.vaults.lookup a.vaultState = some v ∧ v.admin = a.admin ∧
        change q = .ok q' ∧ c' = { c with
          queues := c.queues.insert a.queue q'
          log := .queueConfigUpdated q'.vaultState a.queue q'.cooldownSeconds q'.fulfillmentWindowSeconds ::
            c.log } := by
  simp only [QueueAdmin.update, bind_eq_ok, Prod.exists, Chain.queueOfVault_eq_ok, requireVaultAdmin_eq_ok,
    pure_eq_ok, exists_const] at ran
  obtain ⟨q, v, ⟨queue, queueKey, queueVault, vault⟩, ⟨_, admin⟩, q', changed, rfl⟩ := ran
  exact ⟨q, v, q', queue, queueKey, queueVault, vault, admin, changed, rfl⟩

def SetCooldown.handler (c : Chain) (a : QueueAdmin) (seconds : Nat) : Result Chain :=
  a.update c fun q => q.setCooldown seconds

def SetFulfillmentWindow.handler (c : Chain) (a : QueueAdmin) (seconds : Nat) : Result Chain :=
  a.update c fun q => q.setFulfillmentWindow seconds

structure ReleaseVault where
  queue : Pubkey
  vaultState : Pubkey
  depositMint : Pubkey
  admin : Pubkey
  deriving DecidableEq

/-- The queue's address co-signs the vault's `detach_withdrawal_queue`. -/
def ReleaseVault.handler (c : Chain) (a : ReleaseVault) : Result Chain := do
  let (q, v) ← c.queueOfVault a.queue a.vaultState
  require (q.depositMint = a.depositMint) (.anchor .constraintHasOne)
  requireVaultAdmin q a.vaultState v a.admin
  let detached ← DetachWithdrawalQueue.handler c ⟨a.vaultState, a.depositMint, a.admin⟩ a.queue
  return { detached with
    log := .vaultReleased q.vaultState a.queue q.pendingRequests q.pendingShares :: detached.log }

/-- A successful release. -/
structure ReleaseVault.Ran (c : Chain) (a : ReleaseVault) (q : WithdrawalQueue) (v : VaultState) : Prop where
  queue : c.queues.lookup a.queue = some q
  queueKey : a.queue = .withdrawalQueue a.vaultState
  queueVault : q.vaultState = a.vaultState
  vault : c.vaults.lookup a.vaultState = some v
  admin : v.admin = a.admin
  attached : v.withdrawalQueue = some a.queue

def ReleaseVault.after (c : Chain) (a : ReleaseVault) (q : WithdrawalQueue) (v : VaultState) : Chain :=
  { c with
    vaults := c.vaults.insert a.vaultState { v with withdrawalQueueAuthority := .default }
    log := .vaultReleased q.vaultState a.queue q.pendingRequests q.pendingShares :: c.log }

theorem ReleaseVault.handler_eq_ok {c c' : Chain} {a : ReleaseVault} (ran : ReleaseVault.handler c a = .ok c') :
    ∃ q v, ReleaseVault.Ran c a q v ∧ c' = ReleaseVault.after c a q v := by
  simp only [ReleaseVault.handler, DetachWithdrawalQueue.handler, bind_eq_ok, Prod.exists,
    Chain.queueOfVault_eq_ok, require_eq_ok, requireVaultAdmin_eq_ok, pure_eq_ok, exists_const] at ran
  obtain ⟨q, v, ⟨queue, queueKey, queueVault, vault⟩, _, ⟨_, admin⟩, _, detached, rfl⟩ := ran
  obtain ⟨v₀, _, vault₀, _, _, changed, rfl⟩ := VaultAdmin.update_eq_ok detached
  cases Option.some.inj (vault.symm.trans vault₀)
  simp only [bind_eq_ok, okOr_eq_ok, require_eq_ok, pure_eq_ok, exists_const] at changed
  obtain ⟨current, attached, rfl, rfl⟩ := changed
  exact ⟨q, v, ⟨queue, queueKey, queueVault, vault, admin, attached⟩, rfl⟩

structure SweepEscrowShares where
  queue : Pubkey
  vaultState : Pubkey
  admin : Pubkey
  escrowShares : Pubkey
  shareMint : Pubkey
  destination : Pubkey
  deriving DecidableEq

def SweepEscrowShares.handler (c : Chain) (a : SweepEscrowShares) : Result Chain := do
  let (q, v) ← c.queueOfVault a.queue a.vaultState
  require (q.escrowShares = a.escrowShares ∧ q.shareMint = a.shareMint) (.anchor .constraintHasOne)
  let escrowShares ← fetch c.bank.accounts a.escrowShares (.anchor .accountNotInitialized)
  let destination ← fetch c.bank.accounts a.destination (.anchor .accountNotInitialized)
  require (destination.mint = a.shareMint) (.anchor .constraintTokenMint)
  require (destination.owner ≠ a.queue) (.queue .invalidSweepDestination)
  require (destination.owner ≠ q.vaultState) (.queue .invalidSweepDestination)
  requireVaultAdmin q a.vaultState v a.admin
  let stray ← okOr (checkedSub escrowShares.amount q.pendingShares) (.queue .mathError)
  require (0 < stray) (.queue .nothingToSweep)
  let swept ← c.bank.transferChecked a.escrowShares a.shareMint a.destination a.queue stray
  return { c with
    bank := swept
    log := .escrowSwept q.vaultState a.queue stray a.destination a.admin :: c.log }

/-- A successful sweep. -/
structure SweepEscrowShares.Ran (c : Chain) (a : SweepEscrowShares) (q : WithdrawalQueue) (v : VaultState)
    (escrow : TokenAccount) (swept : Bank) : Prop where
  queue : c.queues.lookup a.queue = some q
  queueKey : a.queue = .withdrawalQueue a.vaultState
  queueVault : q.vaultState = a.vaultState
  vault : c.vaults.lookup a.vaultState = some v
  escrowKey : q.escrowShares = a.escrowShares
  shareMint : q.shareMint = a.shareMint
  atEscrow : c.bank.accounts.lookup a.escrowShares = some escrow
  destination : ∃ t, c.bank.accounts.lookup a.destination = some t ∧ t.mint = a.shareMint ∧
    t.owner ≠ a.queue ∧ t.owner ≠ q.vaultState
  admin : v.admin = a.admin
  covered : q.pendingShares ≤ escrow.amount
  stray : 0 < escrow.amount - q.pendingShares
  sweeps : c.bank.transferChecked a.escrowShares a.shareMint a.destination a.queue
    (escrow.amount - q.pendingShares) = .ok swept

def SweepEscrowShares.after (c : Chain) (a : SweepEscrowShares) (q : WithdrawalQueue) (escrow : TokenAccount)
    (swept : Bank) : Chain :=
  { c with
    bank := swept
    log := .escrowSwept q.vaultState a.queue (escrow.amount - q.pendingShares) a.destination a.admin :: c.log }

theorem SweepEscrowShares.handler_eq_ok {c c' : Chain} {a : SweepEscrowShares} :
    SweepEscrowShares.handler c a = .ok c' ↔ ∃ q v escrow swept,
      SweepEscrowShares.Ran c a q v escrow swept ∧ c' = SweepEscrowShares.after c a q escrow swept := by
  simp only [SweepEscrowShares.handler, bind_eq_ok, Prod.exists, Chain.queueOfVault_eq_ok, fetch_eq_ok,
    require_eq_ok, requireVaultAdmin_eq_ok, okOr_eq_ok, checkedSub_eq_some, pure_eq_ok, exists_const]
  constructor
  · rintro ⟨q, v, ⟨queue, queueKey, queueVault, vault⟩, ⟨escrowKey, shareMint⟩, escrow, atEscrow, t,
      atDestination, sameMint, notQueue, notVault, ⟨_, admin⟩, _, ⟨covered, rfl⟩, stray, swept, sweeps, rfl⟩
    exact ⟨q, v, escrow, swept, ⟨queue, queueKey, queueVault, vault, escrowKey, shareMint, atEscrow,
      ⟨t, atDestination, sameMint, notQueue, notVault⟩, admin, covered, stray, sweeps⟩, rfl⟩
  · rintro ⟨q, v, escrow, swept, ran, rfl⟩
    obtain ⟨t, atDestination, sameMint, notQueue, notVault⟩ := ran.destination
    exact ⟨q, v, ⟨ran.queue, ran.queueKey, ran.queueVault, ran.vault⟩, ⟨ran.escrowKey, ran.shareMint⟩, escrow,
      ran.atEscrow, t, atDestination, sameMint, notQueue, notVault, ⟨ran.queueVault.symm, ran.admin⟩, _,
      ⟨ran.covered, rfl⟩, ran.stray, swept, ran.sweeps, rfl⟩

end Upshift
