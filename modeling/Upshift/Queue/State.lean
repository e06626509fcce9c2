import Upshift.Address
import Upshift.Errors
import Upshift.Lib.Guard

namespace Upshift
open Guard

def maxCooldownSeconds : Nat := 30 * 24 * 60 * 60
def minFulfillmentWindowSeconds : Nat := 24 * 60 * 60
def maxFulfillmentWindowSeconds : Nat := 90 * 24 * 60 * 60

/-- One queue per vault. It owns both escrow accounts and signs for the escrowed shares. -/
structure WithdrawalQueue where
  vaultState : Pubkey
  depositMint : Pubkey
  shareMint : Pubkey
  escrowShares : Pubkey
  escrowAssets : Pubkey
  cooldownSeconds : Nat
  fulfillmentWindowSeconds : Nat
  sequence : Nat
  pendingRequests : Nat
  pendingShares : Nat
  deriving DecidableEq

def WithdrawalQueue.setCooldown (q : WithdrawalQueue) (seconds : Nat) : Result WithdrawalQueue := do
  require (seconds ≤ maxCooldownSeconds) (.queue .cooldownOutOfBounds)
  return { q with cooldownSeconds := seconds }

def WithdrawalQueue.setFulfillmentWindow (q : WithdrawalQueue) (seconds : Nat) :
    Result WithdrawalQueue := do
  require (seconds ≠ 0 → minFulfillmentWindowSeconds ≤ seconds) (.queue .fulfillmentWindowOutOfBounds)
  require (seconds ≠ 0 → seconds ≤ maxFulfillmentWindowSeconds) (.queue .fulfillmentWindowOutOfBounds)
  return { q with fulfillmentWindowSeconds := seconds }

def WithdrawalQueue.init (vaultState depositMint shareMint escrowShares escrowAssets : Pubkey)
    (cooldownSeconds : Nat) : Result WithdrawalQueue :=
  let q : WithdrawalQueue :=
    { vaultState := vaultState, depositMint := depositMint, shareMint := shareMint,
      escrowShares := escrowShares, escrowAssets := escrowAssets, cooldownSeconds := 0,
      fulfillmentWindowSeconds := 0, sequence := 0, pendingRequests := 0, pendingShares := 0 }
  q.setCooldown cooldownSeconds

/-- Counts a request in, returning the queue and the stamp for the request. -/
def WithdrawalQueue.openRequest (q : WithdrawalQueue) (shares : Nat) : Result (WithdrawalQueue × Nat) := do
  let sequence ← okOr (checkedAdd u64Max q.sequence 1) (.queue .mathError)
  let pendingRequests ← okOr (checkedAdd u64Max q.pendingRequests 1) (.queue .mathError)
  let pendingShares ← okOr (checkedAdd u64Max q.pendingShares shares) (.queue .mathError)
  return ({ q with sequence := sequence, pendingRequests := pendingRequests, pendingShares := pendingShares },
    sequence)

def WithdrawalQueue.closeRequest (q : WithdrawalQueue) (shares : Nat) : Result WithdrawalQueue := do
  let pendingRequests ← okOr (checkedSub q.pendingRequests 1) (.queue .mathError)
  let pendingShares ← okOr (checkedSub q.pendingShares shares) (.queue .mathError)
  return { q with pendingRequests := pendingRequests, pendingShares := pendingShares }

/-- The queue with one more request, and with one fewer. -/
def WithdrawalQueue.opened (q : WithdrawalQueue) (shares : Nat) : WithdrawalQueue :=
  { q with
    sequence := q.sequence + 1
    pendingRequests := q.pendingRequests + 1
    pendingShares := q.pendingShares + shares }

def WithdrawalQueue.closed (q : WithdrawalQueue) (shares : Nat) : WithdrawalQueue :=
  { q with pendingRequests := q.pendingRequests - 1, pendingShares := q.pendingShares - shares }

theorem WithdrawalQueue.openRequest_eq_ok {q opened : WithdrawalQueue} {shares sequence : Nat} :
    q.openRequest shares = .ok (opened, sequence) ↔ q.sequence + 1 ≤ u64Max ∧ q.pendingRequests + 1 ≤ u64Max ∧
      q.pendingShares + shares ≤ u64Max ∧ sequence = q.sequence + 1 ∧ opened = q.opened shares := by
  simp only [WithdrawalQueue.openRequest, WithdrawalQueue.opened, bind_eq_ok, okOr_eq_ok, checkedAdd_eq_some, pure_eq_ok, Prod.mk.injEq,
    and_assoc, exists_and_left, exists_eq_left', @eq_comm _ _ opened, @eq_comm _ _ sequence]
  constructor
  · rintro ⟨sequenceFits, requestsFit, sharesFit, changed, stamp⟩
    exact ⟨sequenceFits, requestsFit, sharesFit, stamp, changed⟩
  · rintro ⟨sequenceFits, requestsFit, sharesFit, stamp, changed⟩
    exact ⟨sequenceFits, requestsFit, sharesFit, changed, stamp⟩

theorem WithdrawalQueue.closeRequest_eq_ok {q closed : WithdrawalQueue} {shares : Nat} :
    q.closeRequest shares = .ok closed ↔ 1 ≤ q.pendingRequests ∧ shares ≤ q.pendingShares ∧
      closed = q.closed shares := by
  simp only [WithdrawalQueue.closeRequest, WithdrawalQueue.closed, bind_eq_ok, okOr_eq_ok, checkedSub_eq_some, pure_eq_ok, and_assoc,
    exists_and_left, exists_eq_left', @eq_comm _ _ closed]

theorem WithdrawalQueue.setCooldown_eq_ok {q changed : WithdrawalQueue} {seconds : Nat} :
    q.setCooldown seconds = .ok changed ↔
      seconds ≤ maxCooldownSeconds ∧ changed = { q with cooldownSeconds := seconds } := by
  simp only [WithdrawalQueue.setCooldown, bind_eq_ok, require_eq_ok, pure_eq_ok, exists_const,
    @eq_comm _ _ changed]

theorem WithdrawalQueue.setFulfillmentWindow_eq_ok {q changed : WithdrawalQueue} {seconds : Nat} :
    q.setFulfillmentWindow seconds = .ok changed ↔
      (seconds ≠ 0 → minFulfillmentWindowSeconds ≤ seconds) ∧
        (seconds ≠ 0 → seconds ≤ maxFulfillmentWindowSeconds) ∧
          changed = { q with fulfillmentWindowSeconds := seconds } := by
  simp only [WithdrawalQueue.setFulfillmentWindow, bind_eq_ok, require_eq_ok, pure_eq_ok, exists_const,
    @eq_comm _ _ changed]

/-- One pending withdrawal, at the address its own fields derive. -/
structure WithdrawalRequest where
  queue : Pubkey
  owner : Pubkey
  recipientTokenAccount : Pubkey
  finalizer : Pubkey
  shares : Nat
  requestId : Nat
  sequence : Nat
  requestedAt : Int
  scheduledEligibleAt : Int
  eligibleAt : Int
  expiresAt : Int
  minAssetsOut : Nat
  deriving DecidableEq

/-- `i64::try_from` of a `u64`. -/
def secs (s : Nat) : Result Int := do
  require ((s : Int) ≤ i64Max) (.queue .mathError)
  return s

/-- `i64::checked_add`. -/
def addSeconds (a b : Int) : Result Int := do
  require (i64Min ≤ a + b ∧ a + b ≤ i64Max) (.queue .mathError)
  return a + b

def WithdrawalRequest.schedule (r : WithdrawalRequest) (now : Int) (cooldownSeconds windowSeconds : Nat) :
    Result WithdrawalRequest := do
  let cooldown ← secs cooldownSeconds
  let scheduled ← addSeconds now cooldown
  let expires ← match windowSeconds with
    | 0 => pure 0
    | w => do
      let window ← secs w
      addSeconds scheduled window
  return { r with
    requestedAt := now
    scheduledEligibleAt := scheduled
    eligibleAt := scheduled
    expiresAt := expires }

/-- A zero window leaves the request without a deadline. -/
theorem WithdrawalRequest.schedule_eq_ok {r scheduled : WithdrawalRequest} {now : Int}
    {cooldownSeconds windowSeconds : Nat}
    (ran : r.schedule now cooldownSeconds windowSeconds = .ok scheduled) :
    scheduled = { r with
      requestedAt := now
      scheduledEligibleAt := now + cooldownSeconds
      eligibleAt := now + cooldownSeconds
      expiresAt := if windowSeconds = 0 then 0 else now + cooldownSeconds + windowSeconds } := by
  cases windowSeconds with
  | zero =>
    simp only [WithdrawalRequest.schedule, secs, addSeconds, bind_eq_ok, require_eq_ok, pure_eq_ok,
      exists_const] at ran
    obtain ⟨_, ⟨_, rfl⟩, _, ⟨_, rfl⟩, _, rfl, rfl⟩ := ran
    rfl
  | succ w =>
    simp only [WithdrawalRequest.schedule, secs, addSeconds, bind_eq_ok, require_eq_ok, pure_eq_ok,
      exists_const] at ran
    obtain ⟨_, ⟨_, rfl⟩, _, ⟨_, rfl⟩, _, ⟨_, rfl⟩, _, ⟨_, rfl⟩, rfl⟩ := ran
    rfl

def WithdrawalRequest.open (queue owner recipientTokenAccount finalizer : Pubkey)
    (shares minAssetsOut requestId sequence : Nat) (now : Int) (cooldownSeconds windowSeconds : Nat) :
    Result WithdrawalRequest :=
  let r : WithdrawalRequest :=
    { queue := queue, owner := owner, recipientTokenAccount := recipientTokenAccount,
      finalizer := finalizer, shares := shares, requestId := requestId, sequence := sequence,
      requestedAt := 0, scheduledEligibleAt := 0, eligibleAt := 0, expiresAt := 0,
      minAssetsOut := minAssetsOut }
  r.schedule now cooldownSeconds windowSeconds

def WithdrawalRequest.allowedFinalizer (r : WithdrawalRequest) : Option Pubkey :=
  if r.finalizer ≠ .default then some r.finalizer else none

def WithdrawalRequest.mayFinalize (r : WithdrawalRequest) (caller : Pubkey) : Bool :=
  if caller = r.owner then true
  else match r.allowedFinalizer with
    | none => true
    | some finalizer => finalizer = caller

def WithdrawalRequest.isEligible (r : WithdrawalRequest) (now : Int) : Bool := r.eligibleAt ≤ now

/-- A zero deadline never expires, and the deadline instant counts as expired. -/
def WithdrawalRequest.isExpired (r : WithdrawalRequest) (now : Int) : Bool :=
  r.expiresAt ≠ 0 ∧ r.expiresAt ≤ now

theorem WithdrawalRequest.isExpired_eq_false {r : WithdrawalRequest} {now : Int} :
    r.isExpired now = false ↔ r.expiresAt = 0 ∨ now < r.expiresAt := by
  simp only [WithdrawalRequest.isExpired, ne_eq, decide_eq_false_iff_not, not_and_or, not_not, Int.not_le]

/-- Events of the queue program. -/
inductive QueueEvent
  | queueInitialized (vault queue depositMint shareMint escrowShares escrowAssets : Pubkey)
      (cooldownSeconds : Nat)
  | queueConfigUpdated (vault queue : Pubkey) (cooldownSeconds fulfillmentWindowSeconds : Nat)
  | withdrawalRequested (vault queue request : Pubkey) (requestId : Nat) (owner : Pubkey)
      (sequence shares : Nat) (recipientTokenAccount finalizer : Pubkey) (eligibleAt expiresAt : Int)
      (minAssetsOut : Nat)
  | withdrawalFinalized (vault queue request : Pubkey) (requestId : Nat) (owner : Pubkey)
      (sequence : Nat) (recipient finalizer : Pubkey) (shares assets : Nat)
  | withdrawalCancelled (vault queue request : Pubkey) (requestId : Nat) (owner : Pubkey)
      (sequence : Nat) (signer : Pubkey) (shares : Nat) (destination : Pubkey)
  | withdrawalExpedited (vault queue request : Pubkey) (requestId : Nat) (owner : Pubkey)
      (sequence : Nat) (signer : Pubkey) (previousEligibleAt newEligibleAt : Int)
  | vaultReleased (vault queue : Pubkey) (pendingRequests pendingShares : Nat)
  | escrowSwept (vault queue : Pubkey) (shares : Nat) (destination signer : Pubkey)
  deriving DecidableEq

def WithdrawalRequest.requestedEvent (r : WithdrawalRequest) (vault key : Pubkey) : QueueEvent :=
  .withdrawalRequested vault r.queue key r.requestId r.owner r.sequence r.shares
    r.recipientTokenAccount r.finalizer r.eligibleAt r.expiresAt r.minAssetsOut

def WithdrawalRequest.finalizedEvent (r : WithdrawalRequest) (vault key finalizer : Pubkey) (assets : Nat) :
    QueueEvent :=
  .withdrawalFinalized vault r.queue key r.requestId r.owner r.sequence r.recipientTokenAccount
    finalizer r.shares assets

def WithdrawalRequest.cancelledEvent (r : WithdrawalRequest) (vault key signer destination : Pubkey) :
    QueueEvent :=
  .withdrawalCancelled vault r.queue key r.requestId r.owner r.sequence signer r.shares destination

def WithdrawalRequest.expeditedEvent (r : WithdrawalRequest) (vault key signer : Pubkey) (previous : Int) :
    QueueEvent :=
  .withdrawalExpedited vault r.queue key r.requestId r.owner r.sequence signer previous r.eligibleAt

end Upshift
