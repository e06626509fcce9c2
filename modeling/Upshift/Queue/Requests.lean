import Upshift.Chain

namespace Upshift
open Guard KeyedStore

def onlyMetadataExtensions (m : Mint) : Bool :=
  match m.program with
  | .token => true
  | .token2022 => m.extensions.all fun e => e = .metadataPointer ∨ e = .tokenMetadata

def requireSupportedDepositMint (m : Mint) : Result Unit :=
  require (onlyMetadataExtensions m) (.queue .unsupportedDepositMint)

def requireSupportedShareMint (m : Mint) : Result Unit := do
  require (m.freezeAuthority = none) (.queue .unsupportedShareMint)
  require (onlyMetadataExtensions m) (.queue .unsupportedShareMint)

def requireVaultAdmin (q : WithdrawalQueue) (vaultState : Pubkey) (v : VaultState) (admin : Pubkey) :
    Result Unit := do
  require (vaultState = q.vaultState) (.queue .vaultMismatch)
  require (v.admin = admin) (.queue .notVaultAdmin)

def requireVaultAdminOrOperator (q : WithdrawalQueue) (vaultState : Pubkey) (v : VaultState)
    (signer : Pubkey) : Result Unit := do
  require (vaultState = q.vaultState) (.queue .vaultMismatch)
  require (signer = v.admin ∨ signer = v.operator) (.queue .notVaultAdminOrOperator)

def requireValidRecipient (recipient : Pubkey) (t : TokenAccount) (queue : Pubkey) (q : WithdrawalQueue) :
    Result Unit := do
  require (t.mint = q.depositMint) (.queue .invalidRecipient)
  require (recipient ≠ q.escrowAssets) (.queue .invalidRecipient)
  require (t.owner ≠ queue) (.queue .invalidRecipient)
  require (t.owner ≠ q.vaultState) (.queue .invalidRecipient)

/-- A queue with `has_one = vault_state`, and the vault. -/
def Chain.queueOfVault (c : Chain) (queue vaultState : Pubkey) : Result (WithdrawalQueue × VaultState) := do
  let q ← c.queueAt queue
  require (q.vaultState = vaultState) (.queue .vaultMismatch)
  let v ← fetch c.vaults vaultState (.anchor .accountNotInitialized)
  return (q, v)

theorem Chain.queueOfVault_eq_ok {c : Chain} {queue vaultState : Pubkey} {q : WithdrawalQueue} {v : VaultState} :
    c.queueOfVault queue vaultState = .ok (q, v) ↔ c.queues.lookup queue = some q ∧
      queue = .withdrawalQueue vaultState ∧ q.vaultState = vaultState ∧ c.vaults.lookup vaultState = some v := by
  simp only [Chain.queueOfVault, bind_eq_ok, Chain.queueAt_eq_ok, require_eq_ok, fetch_eq_ok, pure_eq_ok,
    Prod.mk.injEq, exists_const]
  constructor
  · rintro ⟨q, ⟨found, key⟩, same, v, vault, rfl, rfl⟩
    exact ⟨found, same ▸ key, same, vault⟩
  · rintro ⟨found, key, same, vault⟩
    exact ⟨q, ⟨found, same ▸ key⟩, same, v, vault, rfl, rfl⟩

theorem Chain.queueOfVault_fails {c : Chain} {queue vaultState : Pubkey} :
    FailsWith (fun e => e.OfAnchor ∨ e = .queue .vaultMismatch) (c.queueOfVault queue vaultState) := by
  refine .bind (Chain.queueAt_fails.weaken fun _ => Or.inl) fun _ _ => ?_
  refine .bind (.require fun _ => Or.inr rfl) fun _ _ => ?_
  exact .bind (fetch_fails fun _ => Or.inl ⟨_, rfl⟩) fun _ _ => .pure _

theorem requireVaultAdmin_eq_ok {q : WithdrawalQueue} {vaultState admin : Pubkey} {v : VaultState} {u : Unit} :
    requireVaultAdmin q vaultState v admin = .ok u ↔ vaultState = q.vaultState ∧ v.admin = admin := by
  simp only [requireVaultAdmin, bind_eq_ok, require_eq_ok, exists_const]

theorem requireVaultAdminOrOperator_eq_ok {q : WithdrawalQueue} {vaultState signer : Pubkey} {v : VaultState}
    {u : Unit} : requireVaultAdminOrOperator q vaultState v signer = .ok u ↔
      vaultState = q.vaultState ∧ (signer = v.admin ∨ signer = v.operator) := by
  simp only [requireVaultAdminOrOperator, bind_eq_ok, require_eq_ok, exists_const]

theorem requireValidRecipient_eq_ok {recipient queue : Pubkey} {t : TokenAccount} {q : WithdrawalQueue} {u : Unit} :
    requireValidRecipient recipient t queue q = .ok u ↔ t.mint = q.depositMint ∧ recipient ≠ q.escrowAssets ∧
      t.owner ≠ queue ∧ t.owner ≠ q.vaultState := by
  simp only [requireValidRecipient, bind_eq_ok, require_eq_ok, exists_const]

structure RequestWithdrawal where
  queue : Pubkey
  vaultState : Pubkey
  owner : Pubkey
  ownerShareAccount : Pubkey
  escrowShares : Pubkey
  shareMint : Pubkey
  recipientTokenAccount : Pubkey
  request : Pubkey
  deriving DecidableEq

def RequestWithdrawal.handler (c : Chain) (a : RequestWithdrawal)
    (requestId shares minAssetsOut : Nat) (finalizer : Pubkey) : Result Chain := do
  let (q, v) ← c.queueOfVault a.queue a.vaultState
  require (q.escrowShares = a.escrowShares ∧ q.shareMint = a.shareMint) (.anchor .constraintHasOne)
  let _ ← c.tokenAccount a.ownerShareAccount a.shareMint a.owner
  let recipient ← fetch c.bank.accounts a.recipientTokenAccount (.anchor .accountNotInitialized)
  require (a.request = .withdrawalRequest a.queue a.owner requestId) (.anchor .constraintSeeds)
  require (c.requests.lookup a.request = none) (.anchor .accountAlreadyInUse)
  require (v.withdrawalQueue = some a.queue) (.queue .queueNotActiveOnVault)
  require (0 < shares) (.queue .zeroShares)
  requireValidRecipient a.recipientTokenAccount recipient a.queue q
  let (opened, sequence) ← q.openRequest shares
  let r ← WithdrawalRequest.open a.queue a.owner a.recipientTokenAccount finalizer shares minAssetsOut
    requestId sequence c.clock q.cooldownSeconds q.fulfillmentWindowSeconds
  let escrowed ← c.bank.transferChecked a.ownerShareAccount a.shareMint a.escrowShares a.owner shares
  return { c with
    bank := escrowed
    queues := c.queues.insert a.queue opened
    requests := c.requests.insert a.request r
    log := r.requestedEvent q.vaultState a.request :: c.log }

/-- A successful request, stamped with the queue's next sequence number. -/
structure RequestWithdrawal.Ran (c : Chain) (a : RequestWithdrawal) (requestId shares : Nat)
    (q : WithdrawalQueue) (v : VaultState) (escrowed : Bank) : Prop where
  queue : c.queues.lookup a.queue = some q
  queueKey : a.queue = .withdrawalQueue a.vaultState
  queueVault : q.vaultState = a.vaultState
  vault : c.vaults.lookup a.vaultState = some v
  escrow : q.escrowShares = a.escrowShares
  shareMint : q.shareMint = a.shareMint
  source : ∃ t, c.bank.accounts.lookup a.ownerShareAccount = some t ∧ t.owner = a.owner ∧ t.mint = a.shareMint
  recipient : ∃ t, c.bank.accounts.lookup a.recipientTokenAccount = some t ∧ t.mint = q.depositMint ∧
    a.recipientTokenAccount ≠ q.escrowAssets ∧ t.owner ≠ a.queue ∧ t.owner ≠ q.vaultState
  key : a.request = .withdrawalRequest a.queue a.owner requestId
  fresh : c.requests.lookup a.request = none
  attached : v.withdrawalQueue = some a.queue
  positive : 0 < shares
  sequenceFits : q.sequence + 1 ≤ u64Max
  requestsFit : q.pendingRequests + 1 ≤ u64Max
  sharesFit : q.pendingShares + shares ≤ u64Max
  escrows : c.bank.transferChecked a.ownerShareAccount a.shareMint a.escrowShares a.owner shares = .ok escrowed

/-- The request as it is first written. -/
def RequestWithdrawal.record (c : Chain) (a : RequestWithdrawal) (requestId shares minAssetsOut : Nat)
    (finalizer : Pubkey) (q : WithdrawalQueue) : WithdrawalRequest where
  queue := a.queue
  owner := a.owner
  recipientTokenAccount := a.recipientTokenAccount
  finalizer := finalizer
  shares := shares
  requestId := requestId
  sequence := q.sequence + 1
  requestedAt := c.clock
  scheduledEligibleAt := c.clock + q.cooldownSeconds
  eligibleAt := c.clock + q.cooldownSeconds
  expiresAt := if q.fulfillmentWindowSeconds = 0 then 0
    else c.clock + q.cooldownSeconds + q.fulfillmentWindowSeconds
  minAssetsOut := minAssetsOut

def RequestWithdrawal.after (c : Chain) (a : RequestWithdrawal) (shares : Nat) (q : WithdrawalQueue)
    (r : WithdrawalRequest) (escrowed : Bank) : Chain :=
  { c with
    bank := escrowed
    queues := c.queues.insert a.queue (q.opened shares)
    requests := c.requests.insert a.request r
    log := r.requestedEvent q.vaultState a.request :: c.log }

theorem RequestWithdrawal.handler_eq_ok {c c' : Chain} {a : RequestWithdrawal}
    {requestId shares minAssetsOut : Nat} {finalizer : Pubkey}
    (ran : RequestWithdrawal.handler c a requestId shares minAssetsOut finalizer = .ok c') :
    ∃ q v escrowed, RequestWithdrawal.Ran c a requestId shares q v escrowed ∧
      c' = RequestWithdrawal.after c a shares q
        (RequestWithdrawal.record c a requestId shares minAssetsOut finalizer q) escrowed := by
  simp only [RequestWithdrawal.handler, bind_eq_ok, Prod.exists, Chain.queueOfVault_eq_ok,
    Chain.tokenAccount_eq_ok, fetch_eq_ok, require_eq_ok, requireValidRecipient_eq_ok,
    WithdrawalQueue.openRequest_eq_ok, pure_eq_ok, exists_const] at ran
  obtain ⟨q, v, ⟨queue, queueKey, queueVault, vault⟩, ⟨escrow, shareMint⟩, _, source, t, recipient, key, fresh,
    attached, positive, valid, _, _, ⟨sequenceFits, requestsFit, sharesFit, rfl, rfl⟩, r, opened, escrowed,
    escrows, rfl⟩ := ran
  refine ⟨q, v, escrowed, ⟨queue, queueKey, queueVault, vault, escrow, shareMint, ⟨_, source⟩,
    ⟨t, recipient, valid⟩, key, fresh, attached, positive, sequenceFits, requestsFit, sharesFit, escrows⟩, ?_⟩
  rw [WithdrawalRequest.schedule_eq_ok opened]
  rfl

structure CancelWithdrawal where
  queue : Pubkey
  owner : Pubkey
  request : Pubkey
  escrowShares : Pubkey
  shareMint : Pubkey
  destinationShareAccount : Pubkey
  deriving DecidableEq

def CancelWithdrawal.handler (c : Chain) (a : CancelWithdrawal) (expectedSequence : Nat) : Result Chain := do
  let q ← c.queueAt a.queue
  require (q.escrowShares = a.escrowShares ∧ q.shareMint = a.shareMint) (.anchor .constraintHasOne)
  let r ← c.requestAt a.request a.queue
  require (r.owner = a.owner) (.queue .notRequestOwner)
  let _ ← c.tokenAccount a.destinationShareAccount a.shareMint a.owner
  require (r.sequence = expectedSequence) (.queue .staleRequestSequence)
  let closed ← q.closeRequest r.shares
  let returned ← c.bank.transferChecked a.escrowShares a.shareMint a.destinationShareAccount a.queue r.shares
  return { c with
    bank := returned
    queues := c.queues.insert a.queue closed
    requests := c.requests.erase a.request
    log := r.cancelledEvent q.vaultState a.request a.owner a.destinationShareAccount :: c.log }

/-- A successful cancellation. -/
structure CancelWithdrawal.Ran (c : Chain) (a : CancelWithdrawal) (expectedSequence : Nat)
    (q : WithdrawalQueue) (r : WithdrawalRequest) (returned : Bank) : Prop where
  queue : c.queues.lookup a.queue = some q
  queueKey : a.queue = .withdrawalQueue q.vaultState
  escrow : q.escrowShares = a.escrowShares
  shareMint : q.shareMint = a.shareMint
  request : c.requests.lookup a.request = some r
  key : a.request = .withdrawalRequest r.queue r.owner r.requestId
  requestQueue : r.queue = a.queue
  owner : r.owner = a.owner
  destination : ∃ t, c.bank.accounts.lookup a.destinationShareAccount = some t ∧ t.owner = a.owner ∧
    t.mint = a.shareMint
  sequence : r.sequence = expectedSequence
  counted : 1 ≤ q.pendingRequests
  covered : r.shares ≤ q.pendingShares
  returns : c.bank.transferChecked a.escrowShares a.shareMint a.destinationShareAccount a.queue r.shares =
    .ok returned

def CancelWithdrawal.after (c : Chain) (a : CancelWithdrawal) (q : WithdrawalQueue) (r : WithdrawalRequest)
    (returned : Bank) : Chain :=
  { c with
    bank := returned
    queues := c.queues.insert a.queue (q.closed r.shares)
    requests := c.requests.erase a.request
    log := r.cancelledEvent q.vaultState a.request a.owner a.destinationShareAccount :: c.log }

theorem CancelWithdrawal.handler_eq_ok {c c' : Chain} {a : CancelWithdrawal} {expectedSequence : Nat} :
    CancelWithdrawal.handler c a expectedSequence = .ok c' ↔ ∃ q r returned,
      CancelWithdrawal.Ran c a expectedSequence q r returned ∧ c' = CancelWithdrawal.after c a q r returned := by
  simp only [CancelWithdrawal.handler, bind_eq_ok, Chain.queueAt_eq_ok, Chain.requestAt_eq_ok,
    Chain.tokenAccount_eq_ok, require_eq_ok, WithdrawalQueue.closeRequest_eq_ok, pure_eq_ok, exists_const]
  constructor
  · rintro ⟨q, ⟨queue, queueKey⟩, ⟨escrow, shareMint⟩, r, ⟨request, key, requestQueue⟩, owner, t, destination,
      sequence, _, ⟨counted, covered, rfl⟩, returned, returns, rfl⟩
    exact ⟨q, r, returned, ⟨queue, queueKey, escrow, shareMint, request, key, requestQueue, owner,
      ⟨t, destination⟩, sequence, counted, covered, returns⟩, rfl⟩
  · rintro ⟨q, r, returned, ran, rfl⟩
    obtain ⟨t, destination⟩ := ran.destination
    exact ⟨q, ⟨ran.queue, ran.queueKey⟩, ⟨ran.escrow, ran.shareMint⟩, r, ⟨ran.request, ran.key, ran.requestQueue⟩,
      ran.owner, t, destination, ran.sequence, _, ⟨ran.counted, ran.covered, rfl⟩, returned, ran.returns, rfl⟩

/-- The request after an expedite, with the eligibility it had before. -/
def expediteOne (r : WithdrawalRequest) (now : Int) (expectedSequence : Nat) :
    Result (WithdrawalRequest × Int) := do
  require (r.sequence = expectedSequence) (.queue .staleRequestSequence)
  require (r.isExpired now = false) (.queue .requestExpired)
  require (r.isEligible now = false) (.queue .requestAlreadyEligible)
  return ({ r with eligibleAt := now }, r.eligibleAt)

structure ExpediteRequest where
  queue : Pubkey
  vaultState : Pubkey
  authority : Pubkey
  request : Pubkey
  deriving DecidableEq

def ExpediteRequest.handler (c : Chain) (a : ExpediteRequest) (expectedSequence : Nat) : Result Chain := do
  let (q, v) ← c.queueOfVault a.queue a.vaultState
  let r ← c.requestAt a.request a.queue
  requireVaultAdminOrOperator q a.vaultState v a.authority
  let (expedited, previous) ← expediteOne r c.clock expectedSequence
  return { c with
    requests := c.requests.insert a.request expedited
    log := expedited.expeditedEvent q.vaultState a.request a.authority previous :: c.log }

/-- A successful expedite. -/
structure ExpediteRequest.Ran (c : Chain) (a : ExpediteRequest) (expectedSequence : Nat) (q : WithdrawalQueue)
    (v : VaultState) (r : WithdrawalRequest) : Prop where
  queue : c.queues.lookup a.queue = some q
  queueKey : a.queue = .withdrawalQueue a.vaultState
  queueVault : q.vaultState = a.vaultState
  vault : c.vaults.lookup a.vaultState = some v
  request : c.requests.lookup a.request = some r
  key : a.request = .withdrawalRequest r.queue r.owner r.requestId
  requestQueue : r.queue = a.queue
  authority : a.authority = v.admin ∨ a.authority = v.operator
  sequence : r.sequence = expectedSequence
  unexpired : r.isExpired c.clock = false
  early : r.isEligible c.clock = false

def ExpediteRequest.after (c : Chain) (a : ExpediteRequest) (q : WithdrawalQueue) (r : WithdrawalRequest) : Chain :=
  { c with
    requests := c.requests.insert a.request { r with eligibleAt := c.clock }
    log := WithdrawalRequest.expeditedEvent { r with eligibleAt := c.clock } q.vaultState a.request a.authority
      r.eligibleAt :: c.log }

theorem ExpediteRequest.handler_eq_ok {c c' : Chain} {a : ExpediteRequest} {expectedSequence : Nat}
    (ran : ExpediteRequest.handler c a expectedSequence = .ok c') :
    ∃ q v r, ExpediteRequest.Ran c a expectedSequence q v r ∧ c' = ExpediteRequest.after c a q r := by
  simp only [ExpediteRequest.handler, expediteOne, bind_eq_ok, Prod.exists, Chain.queueOfVault_eq_ok,
    Chain.requestAt_eq_ok, requireVaultAdminOrOperator_eq_ok, require_eq_ok, pure_eq_ok, Prod.mk.injEq,
    exists_const] at ran
  obtain ⟨q, v, ⟨queue, queueKey, queueVault, vault⟩, r, ⟨request, key, requestQueue⟩, ⟨_, authority⟩, _, _,
    ⟨sequence, unexpired, early, rfl, rfl⟩, rfl⟩ := ran
  exact ⟨q, v, r, ⟨queue, queueKey, queueVault, vault, request, key, requestQueue, authority, sequence, unexpired,
    early⟩, rfl⟩

end Upshift
