import Upshift.Account.Ranges
import Upshift.Isolation.Holders
import Upshift.Vault.Trades

namespace Upshift
open Guard KeyedStore History

/-- Everything that a request asks of the accounts it names, of its queue and of the clock. -/
structure Chain.Requestable (c : Chain) (a : RequestWithdrawal) (requestId shares : Nat) (q : WithdrawalQueue)
    (v : VaultState) (t : TokenAccount) : Prop where
  queue : c.queues.lookup a.queue = some q
  queueKey : a.queue = .withdrawalQueue a.vaultState
  queueVault : q.vaultState = a.vaultState
  vault : c.vaults.lookup a.vaultState = some v
  escrow : q.escrowShares = a.escrowShares
  shareMint : q.shareMint = a.shareMint
  key : a.request = .withdrawalRequest a.queue a.owner requestId
  fresh : c.requests.lookup a.request = none
  attached : v.withdrawalQueue = some a.queue
  positive : 0 < shares
  recipient : ∃ w, c.bank.accounts.lookup a.recipientTokenAccount = some w ∧
    requireValidRecipient a.recipientTokenAccount w a.queue q = .ok ()
  signs : a.owner.canSign = true
  source : c.bank.accounts.lookup a.ownerShareAccount = some t ∧ t.owner = a.owner ∧ t.mint = a.shareMint
  held : shares ≤ t.amount
  granted : t.delegate = some a.owner → shares ≤ t.delegatedAmount
  stamp : q.sequence < u64Max
  instants : c.clock + q.cooldownSeconds + q.fulfillmentWindowSeconds ≤ i64Max

section Admission
variable {c c' : Chain} {a : RequestWithdrawal} {requestId shares minAssetsOut : Nat} {finalizer : Pubkey}
  {q : WithdrawalQueue} {v : VaultState} {t : TokenAccount}

theorem TokenAccount.spend_granted_iff {authority : Pubkey} {amount : Nat} (owner : t.owner = authority) :
    (∃ spent, t.spend authority amount = .ok spent) ↔ (t.delegate = some authority → amount ≤ t.delegatedAmount) := by
  unfold TokenAccount.spend
  split
  · rename_i delegated
    simp only [bind_eq_ok, require_eq_ok, pure_eq_ok, exists_const, delegated, forall_const]
    constructor
    · rintro ⟨_, covered, _⟩
      exact covered
    · intro covered
      exact ⟨_, covered, rfl⟩
  · rename_i other
    simp only [bind_eq_ok, require_eq_ok, pure_eq_ok, exists_const, owner, true_and, other, false_implies, iff_true]
    exact ⟨t, rfl⟩

/-- A schedule within the limits of the setters fits whenever its last instant does. -/
theorem ScheduleFits.of_last {now : Int} (clock : FitsI64 now) (bounded : q.SettingsBounded)
    (last : now + q.cooldownSeconds + q.fulfillmentWindowSeconds ≤ i64Max) :
    ScheduleFits now q.cooldownSeconds q.fulfillmentWindowSeconds := by
  obtain ⟨cooldown, window⟩ := bounded
  have past := clock.1
  unfold maxCooldownSeconds at cooldown
  unfold maxFulfillmentWindowSeconds at window
  simp only [i64Min, i64Max] at past last
  refine ⟨?_, ?_, Or.inr ⟨?_, ?_⟩⟩ <;> simp only [FitsI64, i64Min, i64Max] <;> omega

theorem ScheduleFits.last {now : Int} {cooldownSeconds windowSeconds : Nat}
    (fits : ScheduleFits now cooldownSeconds windowSeconds) : now + cooldownSeconds + windowSeconds ≤ i64Max := by
  obtain ⟨_, due, off | ⟨_, deadline⟩⟩ := fits
  · have bound := due.2
    rw [off]
    omega
  · exact deadline.2

theorem RequestWithdrawal.Ran.requestable (ran : RequestWithdrawal.Ran c a requestId shares q v bank)
    (fits : ScheduleFits c.clock q.cooldownSeconds q.fulfillmentWindowSeconds) (signs : a.owner.canSign = true) :
    ∃ t, c.Requestable a requestId shares q v t := by
  obtain ⟨t, found, owner, mint⟩ := ran.source
  obtain ⟨w, atRecipient, valid⟩ := ran.recipient
  obtain ⟨src, _, _, spent, atSource, _, _, held, _, _, debit, _⟩ := Bank.transferChecked_eq_ok.mp ran.escrows
  cases Option.some.inj (found.symm.trans atSource)
  exact ⟨t, ran.queue, ran.queueKey, ran.queueVault, ran.vault, ran.escrow, ran.shareMint, ran.key, ran.fresh,
    ran.attached, ran.positive, ⟨w, atRecipient, requireValidRecipient_eq_ok.mpr valid⟩, signs, ⟨found, owner, mint⟩,
    held, (TokenAccount.spend_granted_iff owner).mp ⟨spent, debit⟩, ran.sequenceFits, fits.last⟩

/-- The shares of a request fit beside those already escrowed: both are part of one supply. -/
theorem Chain.Requestable.escrows (requestable : c.Requestable a requestId shares q v t) (reach : Reachable c) :
    (∃ escrowed, c.bank.transferChecked a.ownerShareAccount a.shareMint a.escrowShares a.owner shares = .ok escrowed) ∧
      q.pendingRequests + 1 ≤ u64Max ∧ q.pendingShares + shares ≤ u64Max := by
  have sound := reach.queues_sound a.queue q requestable.queue
  obtain ⟨found, owner, mint⟩ := requestable.source
  obtain ⟨e, atEscrow, escrowOwner, escrowMint⟩ := sound.escrows.shares
  rw [requestable.escrow] at atEscrow
  rw [requestable.shareMint] at escrowMint
  have apart : a.ownerShareAccount ≠ a.escrowShares :=
    Bank.ne_of_owner ⟨t, found, owner⟩ ⟨e, atEscrow, escrowOwner⟩
      (Pubkey.ne_of_canSign requestable.signs sound.formed.derived)
  have room := reach.bank_sound.fits found atEscrow (mint.trans escrowMint.symm) apart
  obtain ⟨fewer, covered⟩ := reach.pending_fit requestable.queue
  rw [requestable.escrow, Bank.balance_of_lookup atEscrow] at covered
  have positive := requestable.positive
  have held := requestable.held
  obtain ⟨m, atMint⟩ := reach.bank_sound.minted found
  obtain ⟨spent, debit⟩ := (TokenAccount.spend_granted_iff owner).mpr requestable.granted
  refine ⟨⟨_, Bank.transferChecked_eq_ok.mpr ⟨t, e, m, spent, found, atEscrow, mint ▸ atMint, held, mint, escrowMint,
    debit, Or.inr ⟨apart, ?_, rfl⟩⟩⟩, ?_, ?_⟩ <;> omega

/-- A request is accepted exactly when its accounts, its queue and the clock allow it: in a reachable chain the
counters of pending requests and shares have room for every request. -/
theorem Reachable.request_accepted_iff (reach : Reachable c) (a : RequestWithdrawal)
    (requestId shares minAssetsOut : UInt64) (finalizer : Pubkey) :
    (∃ c', Step c (.queue (.requestWithdrawal a requestId shares minAssetsOut finalizer)) c') ↔
      ∃ q v t, c.Requestable a requestId.toNat shares.toNat q v t := by
  constructor
  · rintro ⟨c', taken⟩
    obtain ⟨q, v, escrowed, ran, _⟩ := RequestWithdrawal.handler_eq_ok taken.executed
    exact ⟨q, v, ran.requestable (RequestWithdrawal.schedule_fits taken.executed ran.queue)
      (taken.signed _ List.mem_cons_self)⟩
  · rintro ⟨q, v, t, requestable⟩
    obtain ⟨⟨escrowed, escrows⟩, requestsFit, sharesFit⟩ := requestable.escrows reach
    have fits := ScheduleFits.of_last reach.clock_fits (reach.settings_bounded requestable.queue) requestable.instants
    obtain ⟨w, atRecipient, valid⟩ := requestable.recipient
    have opened := @WithdrawalQueue.openRequest_eq_ok q (q.opened shares.toNat) shares.toNat (q.sequence + 1) |>.mpr
      ⟨requestable.stamp, requestsFit, sharesFit, rfl, rfl⟩
    obtain ⟨r, scheduled⟩ := @WithdrawalRequest.schedule_defined
      ⟨a.queue, a.owner, a.recipientTokenAccount, finalizer, shares.toNat, requestId.toNat, q.sequence + 1, 0, 0, 0, 0,
        minAssetsOut.toNat⟩ _ _ _ |>.mpr fits
    have signed : ∀ k ∈ [a.owner], k.canSign = true := fun k member => List.mem_singleton.mp member ▸ requestable.signs
    refine ⟨RequestWithdrawal.after c a shares.toNat q r escrowed, .of_executed signed ?_⟩
    simp only [Chain.execute, Chain.executeQueue, RequestWithdrawal.handler, bind_eq_ok, Prod.exists,
      Chain.queueOfVault_eq_ok, Chain.tokenAccount_eq_ok, fetch_eq_ok, require_eq_ok, pure_eq_ok, exists_const]
    exact ⟨q, v, ⟨requestable.queue, requestable.queueKey, requestable.queueVault, requestable.vault⟩,
      ⟨requestable.escrow, requestable.shareMint⟩, t, requestable.source, w, atRecipient, requestable.key,
      requestable.fresh, requestable.attached, requestable.positive, (), valid, _, _, opened, _, scheduled, escrowed,
      escrows, rfl⟩

end Admission

open Sample in
theorem queued_request_accepted : ∃ q v t, queued.Requestable (requesting 8) 8 1000 q v t :=
  (Reachable.request_accepted_iff (Chain.runAll_reachable _ _) (requesting 8) 8 1000 0 .default).mp
    ⟨_, .of_accepts (by decide +kernel)⟩

section Passage
variable {c c' : Chain} {key : Pubkey} {r r' : WithdrawalRequest} {q : WithdrawalQueue} {v v' : VaultState}
  {history : List (Chain × Instruction)}

end Passage

namespace Sample

end Sample

end Upshift
