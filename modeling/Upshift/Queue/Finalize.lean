import Upshift.Queue.Requests
import Upshift.Vault.Redeem

namespace Upshift
open Guard KeyedStore

structure FinalizeWithdrawal where
  queue : Pubkey
  vaultState : Pubkey
  vaultDepositAta : Pubkey
  feeRecipientAccount : Pubkey
  escrowShares : Pubkey
  escrowAssets : Pubkey
  shareMint : Pubkey
  depositMint : Pubkey
  finalizer : Pubkey
  request : Pubkey
  owner : Pubkey
  recipientTokenAccount : Pubkey
  deriving DecidableEq

/-- The account constraints, returning the queue, the request, the recipient account and what
the asset escrow holds before the redemption. -/
def FinalizeWithdrawal.accounts (a : FinalizeWithdrawal) (c : Chain) :
    Result (WithdrawalQueue × WithdrawalRequest × TokenAccount × Nat) := do
  let q ← c.queueAt a.queue
  require (q.vaultState = a.vaultState) (.queue .vaultMismatch)
  require (q.depositMint = a.depositMint ∧ q.shareMint = a.shareMint ∧
    q.escrowShares = a.escrowShares ∧ q.escrowAssets = a.escrowAssets) (.anchor .constraintHasOne)
  let _ ← fetch c.vaults a.vaultState (.anchor .accountNotInitialized)
  let _ ← fetch c.bank.accounts a.vaultDepositAta (.anchor .accountNotInitialized)
  let _ ← fetch c.bank.accounts a.feeRecipientAccount (.anchor .accountNotInitialized)
  let _ ← fetch c.bank.accounts a.escrowShares (.anchor .accountNotInitialized)
  let escrowAssets ← fetch c.bank.accounts a.escrowAssets (.anchor .accountNotInitialized)
  let r ← c.requestAt a.request a.queue
  require (r.owner = a.owner ∧ r.recipientTokenAccount = a.recipientTokenAccount) (.anchor .constraintHasOne)
  let recipient ← fetch c.bank.accounts a.recipientTokenAccount (.anchor .accountNotInitialized)
  return (q, r, recipient, escrowAssets.amount)

/-- The accounts of the redemption made by CPI, which the queue's address signs. -/
def FinalizeWithdrawal.redeem (a : FinalizeWithdrawal) : Redeem where
  vaultState := a.vaultState
  vaultDepositAta := a.vaultDepositAta
  senderTokenAccount := a.escrowAssets
  senderShareAccount := a.escrowShares
  feeRecipientAccount := a.feeRecipientAccount
  shareMint := a.shareMint
  depositMint := a.depositMint
  signer := a.queue

/-- The redemption of the request's shares, with the growth of the asset escrow across it. -/
def FinalizeWithdrawal.payout (a : FinalizeWithdrawal) (c : Chain) (shares escrowBefore : Nat) :
    Result (Chain × Nat) := do
  let redeemed ← Redeem.handler c a.redeem shares
  let escrowAssets ← fetch redeemed.bank.accounts a.escrowAssets (.anchor .accountNotInitialized)
  let assets ← okOr (checkedSub escrowAssets.amount escrowBefore) (.queue .mathError)
  return (redeemed, assets)

def FinalizeWithdrawal.handler (c : Chain) (a : FinalizeWithdrawal) (expectedSequence : Nat) :
    Result Chain := do
  let (q, r, recipient, escrowBefore) ← a.accounts c
  require (r.sequence = expectedSequence) (.queue .staleRequestSequence)
  require (r.mayFinalize a.finalizer) (.queue .finalizerNotAllowed)
  require (r.isEligible c.clock) (.queue .cooldownNotElapsed)
  require (r.isExpired c.clock = false) (.queue .requestExpired)
  requireValidRecipient a.recipientTokenAccount recipient a.queue q
  let closed ← q.closeRequest r.shares
  let (redeemed, assets) ← a.payout c r.shares escrowBefore
  require (r.minAssetsOut ≤ assets) (.queue .payoutBelowFloor)
  let forwarded ← redeemed.bank.transferChecked a.escrowAssets a.depositMint a.recipientTokenAccount a.queue
    assets
  return { redeemed with
    bank := forwarded
    queues := redeemed.queues.insert a.queue closed
    requests := redeemed.requests.erase a.request
    log := r.finalizedEvent q.vaultState a.request a.finalizer assets :: redeemed.log }

/-- What the account constraints establish. -/
structure FinalizeWithdrawal.Valid (a : FinalizeWithdrawal) (c : Chain) (q : WithdrawalQueue)
    (r : WithdrawalRequest) (recipient escrow : TokenAccount) : Prop where
  queue : c.queues.lookup a.queue = some q
  queueKey : a.queue = .withdrawalQueue a.vaultState
  queueVault : q.vaultState = a.vaultState
  depositMint : q.depositMint = a.depositMint
  shareMint : q.shareMint = a.shareMint
  escrowShares : q.escrowShares = a.escrowShares
  escrowAssets : q.escrowAssets = a.escrowAssets
  vault : ∃ v, c.vaults.lookup a.vaultState = some v
  reserve : ∃ t, c.bank.accounts.lookup a.vaultDepositAta = some t
  feeRecipient : ∃ t, c.bank.accounts.lookup a.feeRecipientAccount = some t
  atEscrowShares : ∃ t, c.bank.accounts.lookup a.escrowShares = some t
  atEscrowAssets : c.bank.accounts.lookup a.escrowAssets = some escrow
  request : c.requests.lookup a.request = some r
  key : a.request = .withdrawalRequest r.queue r.owner r.requestId
  requestQueue : r.queue = a.queue
  owner : r.owner = a.owner
  stored : r.recipientTokenAccount = a.recipientTokenAccount
  atRecipient : c.bank.accounts.lookup a.recipientTokenAccount = some recipient

theorem FinalizeWithdrawal.accounts_eq_ok {a : FinalizeWithdrawal} {c : Chain} {q : WithdrawalQueue}
    {r : WithdrawalRequest} {recipient : TokenAccount} {escrowBefore : Nat} :
    a.accounts c = .ok (q, r, recipient, escrowBefore) ↔
      ∃ escrow, a.Valid c q r recipient escrow ∧ escrow.amount = escrowBefore := by
  simp only [FinalizeWithdrawal.accounts, bind_eq_ok, Chain.queueAt_eq_ok, Chain.requestAt_eq_ok, fetch_eq_ok,
    require_eq_ok, pure_eq_ok, Prod.mk.injEq, exists_const]
  constructor
  · rintro ⟨q, ⟨queue, queueKey⟩, queueVault, ⟨depositMint, shareMint, escrowShares, escrowAssets⟩, v, vault,
      reserve, atReserve, fee, atFee, shares, atShares, escrow, atEscrow, r, ⟨request, key, requestQueue⟩,
      ⟨owner, recipientKey⟩, recipient, atRecipient, rfl, rfl, rfl, rfl⟩
    exact ⟨escrow, ⟨queue, queueVault ▸ queueKey, queueVault, depositMint, shareMint, escrowShares, escrowAssets,
      ⟨v, vault⟩, ⟨reserve, atReserve⟩, ⟨fee, atFee⟩, ⟨shares, atShares⟩, atEscrow, request, key, requestQueue,
      owner, recipientKey, atRecipient⟩, rfl⟩
  · rintro ⟨escrow, valid, rfl⟩
    obtain ⟨v, vault⟩ := valid.vault
    obtain ⟨reserve, atReserve⟩ := valid.reserve
    obtain ⟨fee, atFee⟩ := valid.feeRecipient
    obtain ⟨shares, atShares⟩ := valid.atEscrowShares
    exact ⟨q, ⟨valid.queue, valid.queueVault ▸ valid.queueKey⟩, valid.queueVault,
      ⟨valid.depositMint, valid.shareMint, valid.escrowShares, valid.escrowAssets⟩, v, vault, reserve, atReserve,
      fee, atFee, shares, atShares, escrow, valid.atEscrowAssets, r,
      ⟨valid.request, valid.key, valid.requestQueue⟩, ⟨valid.owner, valid.stored⟩, recipient,
      valid.atRecipient, rfl, rfl, rfl, rfl⟩

/-- A successful finalization that redeems for a gross amount of `assets` and pays out `payout`. -/
structure FinalizeWithdrawal.Ran (c : Chain) (a : FinalizeWithdrawal) (expectedSequence : Nat)
    (q : WithdrawalQueue) (r : WithdrawalRequest) (recipient escrow escrow' : TokenAccount) (v : VaultState)
    (m : Mint) (assets fees : Nat) (paid forwarded : Bank) : Prop where
  valid : a.Valid c q r recipient escrow
  sequence : r.sequence = expectedSequence
  admitted : r.mayFinalize a.finalizer
  eligible : r.isEligible c.clock
  unexpired : r.isExpired c.clock = false
  recipientMint : recipient.mint = q.depositMint
  recipientKey : a.recipientTokenAccount ≠ q.escrowAssets
  recipientOwner : recipient.owner ≠ a.queue ∧ recipient.owner ≠ q.vaultState
  counted : 1 ≤ q.pendingRequests
  covered : r.shares ≤ q.pendingShares
  redeem : Redeem.Ran c a.redeem r.shares 0 v m assets fees paid
  atEscrow' : paid.accounts.lookup a.escrowAssets = some escrow'
  grew : escrow.amount ≤ escrow'.amount
  floor : r.minAssetsOut ≤ escrow'.amount - escrow.amount
  forwards : paid.transferChecked a.escrowAssets a.depositMint a.recipientTokenAccount a.queue
    (escrow'.amount - escrow.amount) = .ok forwarded

def FinalizeWithdrawal.after (c : Chain) (a : FinalizeWithdrawal) (q : WithdrawalQueue) (r : WithdrawalRequest)
    (v : VaultState) (assets payout : Nat) (forwarded : Bank) : Chain :=
  { c with
    bank := forwarded
    vaults := c.vaults.insert a.vaultState { v with localAum := v.localAum - assets }
    queues := c.queues.insert a.queue (q.closed r.shares)
    requests := c.requests.erase a.request
    log := r.finalizedEvent q.vaultState a.request a.finalizer payout :: c.log }

theorem FinalizeWithdrawal.handler_eq_ok {c c' : Chain} {a : FinalizeWithdrawal} {expectedSequence : Nat} :
    FinalizeWithdrawal.handler c a expectedSequence = .ok c' ↔
      ∃ q r recipient escrow escrow' v m assets fees paid forwarded,
        FinalizeWithdrawal.Ran c a expectedSequence q r recipient escrow escrow' v m assets fees paid forwarded ∧
          c' = FinalizeWithdrawal.after c a q r v assets (escrow'.amount - escrow.amount) forwarded := by
  simp only [FinalizeWithdrawal.handler, FinalizeWithdrawal.payout, Redeem.handler, bind_eq_ok, Prod.exists,
    FinalizeWithdrawal.accounts_eq_ok, require_eq_ok, requireValidRecipient_eq_ok,
    WithdrawalQueue.closeRequest_eq_ok, Redeem.handlerChecked_eq_ok, fetch_eq_ok, okOr_eq_ok, checkedSub_eq_some,
    pure_eq_ok, Prod.mk.injEq, exists_const]
  constructor
  · rintro ⟨q, r, recipient, _, ⟨escrow, valid, rfl⟩, sequence, admitted, eligible, unexpired,
      ⟨recipientMint, recipientKey, recipientOwner⟩, _, ⟨counted, covered, rfl⟩, _, _, ⟨_,
      ⟨v, m, assets, fees, paid, redeem, rfl⟩, escrow', atEscrow', _, ⟨grew, rfl⟩, rfl, rfl⟩, floor, forwarded,
      forwards, rfl⟩
    exact ⟨q, r, recipient, escrow, escrow', v, m, assets, fees, paid, forwarded, ⟨valid, sequence, admitted,
      eligible, unexpired, recipientMint, recipientKey, recipientOwner, counted, covered, redeem, atEscrow', grew,
      floor, forwards⟩, rfl⟩
  · rintro ⟨q, r, recipient, escrow, escrow', v, m, assets, fees, paid, forwarded, ran, rfl⟩
    exact ⟨q, r, recipient, escrow.amount, ⟨escrow, ran.valid, rfl⟩, ran.sequence, ran.admitted, ran.eligible,
      ran.unexpired, ⟨ran.recipientMint, ran.recipientKey, ran.recipientOwner⟩, _,
      ⟨ran.counted, ran.covered, rfl⟩, _, _, ⟨_, ⟨v, m, assets, fees, paid, ran.redeem, rfl⟩, escrow',
      ran.atEscrow', _, ⟨ran.grew, rfl⟩, rfl, rfl⟩, ran.floor, forwarded, ran.forwards, rfl⟩

end Upshift
