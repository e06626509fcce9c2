import Upshift.Queue.Custody

namespace Upshift
open Guard KeyedStore

/-- What a cancellation of the request `r` at `key` does, with its shares going to `destination`. -/
structure Chain.Cancelled (c c' : Chain) (key destination : Pubkey) (q : WithdrawalQueue) (r : WithdrawalRequest) :
    Prop where
  returned : c'.bank.balance destination = c.bank.balance destination + r.shares
  released : c'.bank.balance q.escrowShares + r.shares = c.bank.balance q.escrowShares
  others : ∀ account, account ≠ destination → account ≠ q.escrowShares →
    c'.bank.accounts.lookup account = c.bank.accounts.lookup account
  reserves : ∀ k v, c.vaults.lookup k = some v → c'.bank.balance v.reserve = c.bank.balance v.reserve
  mints : c'.bank.mints = c.bank.mints
  counted : 1 ≤ q.pendingRequests ∧ r.shares ≤ q.pendingShares
  queues : c'.queues = c.queues.insert r.queue { q with
    pendingRequests := q.pendingRequests - 1, pendingShares := q.pendingShares - r.shares }
  requests : c'.requests = c.requests.erase key
  vaults : c'.vaults = c.vaults
  subaccounts : c'.subaccounts = c.subaccounts

section Cancel
variable {c c' : Chain} {key destination : Pubkey} {q : WithdrawalQueue} {r : WithdrawalRequest} {t : TokenAccount}

/-- Accounts that a transfer does not name stay as they were. -/
theorem Bank.transfer_others {b b' : Bank} {source mint destination authority : Pubkey} {amount : Nat}
    (ran : b.transferChecked source mint destination authority amount = .ok b') {account : Pubkey}
    (notSource : account ≠ source) (notDestination : account ≠ destination) :
    b'.accounts.lookup account = b.accounts.lookup account := by
  obtain ⟨_, _, _, _, _, _, _, _, _, _, _, outcome⟩ := Bank.transferChecked_eq_ok.mp ran
  rcases outcome with ⟨_, rfl⟩ | ⟨_, _, rfl⟩
  · rfl
  · rw [Finmap.lookup_insert_of_ne _ notDestination, Finmap.lookup_insert_of_ne _ notSource]

/-- The shares of a live request can always leave the escrow for another account of the mint. -/
theorem Reachable.escrow_pays (reach : Reachable c) (live : c.requests.lookup key = some r)
    (queue : c.queues.lookup r.queue = some q) (atDestination : c.bank.accounts.lookup destination = some t)
    (mint : t.mint = q.shareMint) :
    ∃ returned, c.bank.transferChecked q.escrowShares q.shareMint destination r.queue r.shares = .ok returned := by
  have sound := reach.queues_sound r.queue q queue
  have covered := sound.covered
  have pending := (WithdrawalQueue.closeRequest_eq_ok.mp (sound.counted.closes live rfl)).2.1
  exact reach.bank_sound.pays sound.escrows.shares ⟨t, atDestination, mint⟩ sound.formed.derived
    (pending.trans covered)

/-- The owner can cancel a live request in every reachable state, into any share account of
theirs, and nothing else changes. -/
theorem Reachable.cancel_exact (reach : Reachable c) (live : c.requests.lookup key = some r)
    (queue : c.queues.lookup r.queue = some q) (atDestination : c.bank.accounts.lookup destination = some t)
    (owner : t.owner = r.owner) (mint : t.mint = q.shareMint) :
    (UInt64.ofNat r.sequence).toNat = r.sequence ∧
      ∃ c', Step c (.queue (.cancelWithdrawal ⟨r.queue, r.owner, key, q.escrowShares, q.shareMint, destination⟩
        (UInt64.ofNat r.sequence))) c' ∧ c.Cancelled c' key destination q r := by
  have request := reach.requests_sound key r live
  have sound := reach.queues_sound r.queue q queue
  have quoted := reach.stamp_fits live
  have foreign : t.owner ≠ r.queue := owner ▸ Pubkey.ne_of_canSign request.owner sound.formed.derived
  obtain ⟨returned, returns⟩ := reach.escrow_pays live queue atDestination mint
  obtain ⟨counted, covered, _⟩ := WithdrawalQueue.closeRequest_eq_ok.mp (sound.counted.closes live rfl)
  obtain ⟨escrow, atEscrow, escrowOwner, _⟩ := sound.escrows.shares
  have apart : q.escrowShares ≠ destination :=
    Bank.ne_of_owner ⟨escrow, atEscrow, escrowOwner⟩ ⟨t, atDestination, rfl⟩ foreign.symm
  have ran : CancelWithdrawal.Ran c ⟨r.queue, r.owner, key, q.escrowShares, q.shareMint, destination⟩
      (UInt64.ofNat r.sequence).toNat q r returned :=
    ⟨queue, sound.formed.key, rfl, rfl, live, request.key, rfl, rfl, ⟨t, atDestination, owner, mint⟩, quoted.symm,
      counted, covered, returns⟩
  have signed : ∀ a ∈ [r.owner], a.canSign = true := fun a member => List.mem_singleton.mp member ▸ request.owner
  refine ⟨quoted, _, .of_executed signed (CancelWithdrawal.handler_eq_ok.mpr ⟨q, r, returned, ran, rfl⟩), ?_⟩
  constructor
  · change returned.balance destination = _
    rw [Bank.transfer_balance returns, if_neg apart, if_pos rfl]
  · have held := Bank.transfer_covered returns
    change returned.balance q.escrowShares + r.shares = _
    rw [Bank.transfer_balance returns, if_neg apart, if_neg apart, if_pos rfl]
    omega
  · exact fun account notDestination notEscrow => Bank.transfer_others returns notEscrow notDestination
  · intro k v vault
    have vaultSound := reach.vaults_sound k v vault
    obtain ⟨s, atReserve, reserveOwner, _⟩ := vaultSound.backed.reserve
    have notDestination : v.reserve ≠ destination :=
      (Bank.ne_of_owner ⟨t, atDestination, rfl⟩ ⟨s, atReserve, reserveOwner⟩
        (owner ▸ Pubkey.ne_of_canSign request.owner vaultSound.formed.derived)).symm
    have notEscrow : v.reserve ≠ q.escrowShares := by
      rw [sound.formed.escrowShares]
      exact Pubkey.noConfusion
    change returned.balance v.reserve = _
    rw [Bank.transfer_balance returns, if_neg apart, if_neg notDestination, if_neg notEscrow]
  · exact Bank.transfer_mints returns
  · exact ⟨counted, covered⟩
  · rfl
  · rfl
  · rfl
  · rfl

end Cancel

namespace Sample

def requestOpened : WithdrawalRequest where
  queue := queue
  owner := user
  recipientTokenAccount := wallet user
  finalizer := .default
  shares := 50000
  requestId := 7
  sequence := 1
  requestedAt := 0
  scheduledEligibleAt := 3600
  eligibleAt := 3600
  expiresAt := 0
  minAssetsOut := 0

theorem queued_request : queued.requests.lookup (request 7) = some requestOpened := by decide +kernel

end Sample

open Sample in
theorem queued_cancel_exact : (UInt64.ofNat 1).toNat = 1 ∧ ∃ c', Step queued (.queue (.cancelWithdrawal
    ⟨queue, user, request 7, escrowShares, shareMint, shares user⟩ (UInt64.ofNat 1))) c' ∧
      queued.Cancelled c' (request 7) (shares user) queueOpened requestOpened :=
  @Reachable.cancel_exact queued (request 7) (shares user) queueOpened requestOpened
    ⟨shareMint, user, 149300, none, 0, none⟩ (Chain.runAll_reachable _ _) queued_request queued_queue (by decide +kernel)
    rfl rfl

end Upshift
