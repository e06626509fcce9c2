import Upshift.Chain

namespace Upshift
open Guard KeyedStore

/-- The accounts every admin setter shares. -/
structure VaultAdmin where
  vaultState : Pubkey
  depositMint : Pubkey
  admin : Pubkey
  deriving DecidableEq

def VaultAdmin.accounts (a : VaultAdmin) (c : Chain) : Result VaultState := do
  let v ← c.vaultAt a.vaultState a.depositMint
  require (v.admin = a.admin) (.vault .notAdmin)
  return v

/-- An instruction that rewrites the vault account alone, under the admin's signature. -/
def VaultAdmin.update (a : VaultAdmin) (c : Chain) (change : VaultState → Result VaultState) :
    Result Chain := do
  let v ← a.accounts c
  let changed ← change v
  return { c with vaults := c.vaults.insert a.vaultState changed }

theorem VaultAdmin.accounts_eq_ok {a : VaultAdmin} {c : Chain} {v : VaultState}
    (valid : a.accounts c = .ok v) : c.vaults.lookup a.vaultState = some v ∧
      a.vaultState = .vaultState a.depositMint v.vaultVersion ∧ v.admin = a.admin := by
  simp only [VaultAdmin.accounts, bind_eq_ok, Chain.vaultAt_eq_ok, require_eq_ok, pure_eq_ok, exists_const] at valid
  obtain ⟨v, ⟨vault, _, key⟩, admin, rfl⟩ := valid
  exact ⟨vault, key, admin⟩

theorem VaultAdmin.update_eq_ok {a : VaultAdmin} {c c' : Chain} {change : VaultState → Result VaultState}
    (ran : a.update c change = .ok c') : ∃ v v', c.vaults.lookup a.vaultState = some v ∧
      a.vaultState = .vaultState a.depositMint v.vaultVersion ∧ v.admin = a.admin ∧ change v = .ok v' ∧
      c' = { c with vaults := c.vaults.insert a.vaultState v' } := by
  simp only [VaultAdmin.update, bind_eq_ok, pure_eq_ok] at ran
  obtain ⟨v, accounts, v', changed, rfl⟩ := ran
  obtain ⟨vault, key, admin⟩ := VaultAdmin.accounts_eq_ok accounts
  exact ⟨v, v', vault, key, admin, changed, rfl⟩

def Pause.handler (c : Chain) (a : VaultAdmin) : Result Chain :=
  a.update c fun v => return { v with paused := true }

def Unpause.handler (c : Chain) (a : VaultAdmin) : Result Chain :=
  a.update c fun v => return { v with paused := false }

def SetFeeRecipient.handler (c : Chain) (a : VaultAdmin) (newFeeRecipient : Pubkey) : Result Chain :=
  a.update c fun v => return { v with feeRecipient := newFeeRecipient }

def SetWithdrawalFee.handler (c : Chain) (a : VaultAdmin) (newFee : Nat) : Result Chain :=
  a.update c fun v => do
    require (newFee < 10 * feeRateDenominatorValue / 100) (.vault .withdrawalFeeTooHigh)
    return { v with withdrawalFee := newFee }

def SetAumLimits.handler (c : Chain) (a : VaultAdmin) (increaseLimit decreaseLimit : Nat) : Result Chain :=
  a.update c fun v => do
    require (increaseLimit ≤ bpsDenominator) (.vault .aumLimitTooHigh)
    require (decreaseLimit ≤ bpsDenominator) (.vault .aumLimitTooHigh)
    return { v with aumIncreaseLimit := increaseLimit, aumDecreaseLimit := decreaseLimit }

def SetOperator.handler (c : Chain) (a : VaultAdmin) (newOperator : Pubkey) : Result Chain :=
  a.update c fun v => do
    require (newOperator ≠ .default) (.vault .invalidAuthority)
    return { v with operator := newOperator }

/-- Only the queue program creates an account at the queue's address, so an account there is
owned by that program and holds data. -/
def AttachWithdrawalQueue.handler (c : Chain) (a : VaultAdmin) (queue : Pubkey) : Result Chain :=
  a.update c fun v => do
    require (v.withdrawalQueue = none) (.vault .withdrawalQueueAlreadyAttached)
    require (queue = withdrawalQueuePda a.vaultState) (.vault .invalidWithdrawalQueueAuthority)
    require ((c.queues.lookup queue).isSome) (.vault .invalidWithdrawalQueueAuthority)
    return { v with withdrawalQueueAuthority := queue }

/-- `queue` signs: see `release_vault`. -/
def DetachWithdrawalQueue.handler (c : Chain) (a : VaultAdmin) (queue : Pubkey) : Result Chain :=
  a.update c fun v => do
    let current ← okOr v.withdrawalQueue (.vault .withdrawalQueueNotAttached)
    require (queue = current) (.vault .wrongWithdrawalQueueSigner)
    return { v with withdrawalQueueAuthority := .default }

/-- The nomination account is created, or reused when one is there. -/
def NominateAdmin.handler (c : Chain) (a : VaultAdmin) (nominatedAdminPda nominatedAdmin : Pubkey) :
    Result Chain := do
  let v ← a.accounts c
  require (nominatedAdminPda = .nominatedAdmin a.depositMint v.vaultVersion) (.anchor .constraintSeeds)
  let nomination ← NominatedAdmin.init nominatedAdmin c.clock
  return { c with nominations := c.nominations.insert nominatedAdminPda nomination }

structure AcceptAdminNomination where
  vaultState : Pubkey
  depositMint : Pubkey
  nominatedAdminPda : Pubkey
  newAdmin : Pubkey
  deriving DecidableEq

def AcceptAdminNomination.handler (c : Chain) (a : AcceptAdminNomination) : Result Chain := do
  let v ← c.vaultAt a.vaultState a.depositMint
  let nomination ← fetch c.nominations a.nominatedAdminPda (.anchor .accountNotInitialized)
  require (a.nominatedAdminPda = .nominatedAdmin a.depositMint v.vaultVersion) (.anchor .constraintSeeds)
  nomination.validAcceptNomination a.newAdmin c.clock
  return { c with
    vaults := c.vaults.insert a.vaultState { v with admin := nomination.nominatedAdmin }
    nominations := c.nominations.erase a.nominatedAdminPda }

end Upshift
