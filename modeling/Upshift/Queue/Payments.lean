import Upshift.Queue.Custody
import Upshift.Queue.EventLog
import Upshift.Queue.Payout

namespace Upshift
open Guard KeyedStore History

/-- The chain inside a transaction: where it finalizes a request, after the redemption and before the payment. -/
def Chain.midway (c : Chain) (i : Instruction) : Chain :=
  match i with
  | .queue (.finalizeWithdrawal a _) =>
    (Redeem.handler c a.redeem ((c.requests.lookup a.request).elim 0 WithdrawalRequest.shares)).toOption.getD c
  | _ => c

/-- What leaves an account in a transaction, by its balances before, inside and after it. -/
def Chain.sent (c : Chain) (i : Instruction) (account : Pubkey) : Nat :=
  (c.bank.balance account - (c.midway i).bank.balance account) +
    ((c.midway i).bank.balance account - (c.next i).bank.balance account)

/-- What ever left an account. -/
def sentFrom (history : List (Chain × Instruction)) (account : Pubkey) : Nat :=
  (history.map fun event => event.1.sent event.2 account).sum

/-- What an event says was paid by the queue at `k`. -/
def QueueEvent.paid (k : Pubkey) : QueueEvent → Nat
  | .withdrawalFinalized _ queue _ _ _ _ _ _ _ assets => if queue = k then assets else 0
  | _ => 0

def paidIn (k : Pubkey) (log : List QueueEvent) : Nat := (log.map (QueueEvent.paid k)).sum

/-- The redeemed `assets` go from the asset escrow to the recipient. Before that, the redemption may have paid its
fee to the recipient's account. -/
structure FinalizeWithdrawal.Forwards (a : FinalizeWithdrawal) (c between c' : Chain) (assets : Nat) : Prop where
  sent : c'.bank.balance a.escrowAssets + assets = between.bank.balance a.escrowAssets
  received : c'.bank.balance a.recipientTokenAccount = between.bank.balance a.recipientTokenAccount + assets
  spared : a.recipientTokenAccount ≠ a.feeRecipientAccount →
    between.bank.balance a.recipientTokenAccount = c.bank.balance a.recipientTokenAccount
  redeemed : c.bank.balance a.escrowAssets + assets = between.bank.balance a.escrowAssets

section Finalization
variable {c : Chain} {a : FinalizeWithdrawal} {expectedSequence : UInt64} {q : WithdrawalQueue} {r : WithdrawalRequest}
  {recipient escrow escrow' : TokenAccount} {v : VaultState} {m : Mint} {assets fees : Nat} {paid forwarded : Bank}

theorem FinalizeWithdrawal.Ran.midway
    (ran : FinalizeWithdrawal.Ran c a expectedSequence.toNat q r recipient escrow escrow' v m assets fees paid
      forwarded) :
    c.midway (.queue (.finalizeWithdrawal a expectedSequence)) = Redeem.after c a.redeem v assets paid := by
  have redeemed : Redeem.handler c a.redeem r.shares = .ok (Redeem.after c a.redeem v assets paid) :=
    Redeem.handlerChecked_eq_ok.mpr ⟨v, m, assets, fees, paid, ran.redeem, rfl⟩
  rw [Chain.midway, ran.valid.request, Option.elim_some, redeemed]
  rfl

/-- A finalization moves exactly what it logs, once the redemption has brought it into the escrow. -/
theorem FinalizeWithdrawal.Ran.forwards_logged {n : Nat}
    (ran : FinalizeWithdrawal.Ran c a n q r recipient escrow escrow' v m assets fees paid forwarded) :
    a.Forwards c (Redeem.after c a.redeem v assets paid)
      (FinalizeWithdrawal.after c a q r v assets (escrow'.amount - escrow.amount) forwarded)
      (escrow'.amount - escrow.amount) := by
  obtain ⟨redeemed, received⟩ := ran.recipient_flow
  have notRecipient : a.escrowAssets ≠ a.recipientTokenAccount :=
    fun same => ran.recipientKey (same.symm.trans ran.valid.escrowAssets.symm)
  have sent := Bank.transfer_flow ran.forwards a.escrowAssets
  rw [if_pos rfl, if_neg notRecipient] at sent
  refine ⟨sent, received, fun apart => ?_, ?_⟩
  · rwa [if_neg apart] at redeemed
  · have grew := ran.grew
    simp only [Redeem.after, Bank.balance_of_lookup ran.valid.atEscrowAssets, Bank.balance_of_lookup ran.atEscrow']
    omega

end Finalization

section Step
variable {c c' : Chain} {i : Instruction} {k : Pubkey} {q : WithdrawalQueue} {mint : Pubkey} {vaultVersion : Nat}

/-- The escrow accounts of a queue, by the mint and the version that its address names. -/
theorem WithdrawalQueue.WellFormed.named (formed : q.WellFormed k)
    (here : k = .withdrawalQueue (.vaultState mint vaultVersion)) :
    q.escrowAssets = .associatedToken k mint ∧ q.escrowShares ≠ .associatedToken k mint := by
  obtain ⟨version, vault, shareMint⟩ := formed.vault
  have same := (formed.key.symm.trans here)
  rw [vault, Pubkey.withdrawalQueue.injEq, Pubkey.vaultState.injEq] at same
  refine ⟨same.1 ▸ formed.escrowAssets, fun aliased => ?_⟩
  have mints := formed.escrowShares.symm.trans aliased
  rw [Pubkey.associatedToken.injEq, shareMint, ← same.1] at mints
  exact Pubkey.shareMint_ne_depositMint _ _ mints.2

theorem Chain.midway_eq (other : ∀ a n, i ≠ .queue (.finalizeWithdrawal a n)) : c.midway i = c := by
  unfold Chain.midway
  split
  · exact absurd rfl (other _ _)
  · rfl

/-- What a finalization's first half respects, and its second. -/
theorem FinalizeWithdrawal.Ran.halves {a : FinalizeWithdrawal} {n : Nat} {r : WithdrawalRequest}
    {recipient escrow escrow' : TokenAccount} {v : VaultState} {m : Mint} {assets fees : Nat} {paid forwarded : Bank}
    (ran : FinalizeWithdrawal.Ran c a n q r recipient escrow escrow' v m assets fees paid forwarded) :
    c.bank.Respects (fun x => x = a.vaultState ∨ x = a.queue) paid ∧
      paid.Respects (fun x => x = a.vaultState ∨ x = a.queue) forwarded :=
  ⟨Redeem.interactions_respects (Or.inr rfl) (Or.inl rfl) ran.redeem.interactions,
    Bank.transfer_respects ran.forwards (Or.inr rfl)⟩

/-- Nothing leaves an asset escrow where its queue does not sign. -/
theorem Step.spares_assets (reach : Reachable c) (taken : Step c i c')
    (here : k = .withdrawalQueue (.vaultState mint vaultVersion)) (apart : k ∉ i.derivedSigners) :
    c.sent i (.associatedToken k mint) = 0 := by
  subst here
  have sound := reach.bank_sound
  rw [Chain.sent, taken.next_eq]
  by_cases finalizes : ∃ a n, i = .queue (.finalizeWithdrawal a n)
  · obtain ⟨a, n, rfl⟩ := finalizes
    obtain ⟨q, r, _, escrow, escrow', _, _, _, _, _, _, ran, rfl⟩ :=
      FinalizeWithdrawal.handler_eq_ok.mp taken.executed
    obtain ⟨redeems, forwards⟩ := ran.halves
    have outside : ¬(.withdrawalQueue (.vaultState mint vaultVersion) = a.vaultState ∨
        .withdrawalQueue (.vaultState mint vaultVersion) = a.queue) := by
      rintro (vault | queue)
      · exact apart (vault ▸ List.mem_cons_self)
      · exact apart (queue ▸ List.mem_cons_of_mem _ List.mem_cons_self)
    have first := sound.associated_kept redeems (m := mint) rfl outside
    have second := (Redeem.interactions_sound sound ran.redeem.interactions).associated_kept forwards (m := mint) rfl
      outside
    rw [ran.midway]
    simp only [Redeem.after, FinalizeWithdrawal.after]
    omega
  · have run : c.bank.Respects (fun a => a ∈ i.signers ∨ a ∈ i.derivedSigners) c'.bank :=
      taken.respects_of (fun _ => Or.inl) fun _ => Or.inr
    have whole := sound.associated_kept run (m := mint) rfl fun acts =>
      acts.elim (fun signs => Bool.noConfusion (taken.signed _ signs)) apart
    rw [Chain.midway_eq fun a n label => finalizes ⟨a, n, label⟩]
    omega

/-- Cancelling and sweeping move shares, and leave the asset escrow. -/
theorem Step.escrow_spared (reach : Reachable c) (taken : Step c i c')
    (here : k = .withdrawalQueue (.vaultState mint vaultVersion))
    (other : ∀ a n, i = .queue (.finalizeWithdrawal a n) → a.queue ≠ k) :
    c.sent i (.associatedToken k mint) = 0 := by
  by_cases acts : k ∈ i.derivedSigners
  · rw [here] at acts
    rcases taken.queue_signs acts with ⟨a, n, rfl, queue⟩ | ⟨a, rfl, queue⟩ | ⟨a, n, rfl, queue⟩
    · obtain ⟨q, _, _, ran, rfl⟩ := CancelWithdrawal.handler_eq_ok.mp taken.executed
      have formed := (reach.queues_sound a.queue q ran.queue).formed
      rw [queue, ← here] at formed
      have shares : .associatedToken k mint ≠ a.escrowShares :=
        fun same => (formed.named here).2 (ran.escrow.trans same.symm)
      have flow := Bank.transfer_flow ran.returns (.associatedToken k mint)
      rw [if_neg shares] at flow
      rw [Chain.sent, taken.next_eq, Chain.midway_eq fun a n label => by cases label]
      simp only [CancelWithdrawal.after]
      omega
    · obtain ⟨q, _, _, _, ran, rfl⟩ := SweepEscrowShares.handler_eq_ok.mp taken.executed
      have formed := (reach.queues_sound a.queue q ran.queue).formed
      rw [queue, ← here] at formed
      have shares : .associatedToken k mint ≠ a.escrowShares :=
        fun same => (formed.named here).2 (ran.escrowKey.trans same.symm)
      have flow := Bank.transfer_flow ran.sweeps (.associatedToken k mint)
      rw [if_neg shares] at flow
      rw [Chain.sent, taken.next_eq, Chain.midway_eq fun a n label => by cases label]
      simp only [SweepEscrowShares.after]
      omega
    · exact absurd (queue.trans here.symm) (other a n rfl)
  · exact taken.spares_assets reach here acts

/-- What a finalization logs as paid is what it moves from its escrow to the recipient. -/
theorem Step.forwards {a : FinalizeWithdrawal} {n : UInt64}
    (taken : Step c (.queue (.finalizeWithdrawal a n)) c') : ∃ assets,
      paidIn a.queue c'.log = paidIn a.queue c.log + assets ∧
        a.Forwards c (c.midway (.queue (.finalizeWithdrawal a n))) c' assets := by
  obtain ⟨q, r, _, escrow, escrow', v, _, assets, _, _, forwarded, ran, rfl⟩ :=
    FinalizeWithdrawal.handler_eq_ok.mp taken.executed
  refine ⟨escrow'.amount - escrow.amount, ?_, ran.midway ▸ ran.forwards_logged⟩
  have event : (r.finalizedEvent q.vaultState a.request a.finalizer (escrow'.amount - escrow.amount)).paid a.queue =
      escrow'.amount - escrow.amount := if_pos ran.valid.requestQueue
  simp only [paidIn, FinalizeWithdrawal.after, List.map_cons, List.sum_cons, event]
  exact Nat.add_comm _ _

/-- In one step the events pay what leaves the asset escrow. -/
theorem Step.paid (reach : Reachable c) (taken : Step c i c')
    (here : k = .withdrawalQueue (.vaultState mint vaultVersion)) :
    paidIn k c'.log = paidIn k c.log + c.sent i (.associatedToken k mint) := by
  by_cases pays : ∃ a n, i = .queue (.finalizeWithdrawal a n) ∧ a.queue = k
  · obtain ⟨a, n, rfl, rfl⟩ := pays
    obtain ⟨q, r, _, escrow, escrow', _, _, _, _, _, _, ran, rfl⟩ :=
      FinalizeWithdrawal.handler_eq_ok.mp taken.executed
    have named := (reach.queues_sound a.queue q ran.valid.queue).formed.named here
    obtain ⟨assets, logged, moves⟩ := taken.forwards
    have sent := moves.sent
    have redeemed := moves.redeemed
    rw [Chain.sent, taken.next_eq, ← named.1, ran.valid.escrowAssets, logged]
    omega
  · have apart : ∀ a n, i = .queue (.finalizeWithdrawal a n) → a.queue ≠ k := by
      rintro a n rfl queue
      exact pays ⟨a, n, rfl, queue⟩
    rw [taken.escrow_spared reach here apart]
    cases taken.log_move with
    | silent _ _ log => rw [log, Nat.add_zero]
    | @general _ e _ _ log other =>
      rw [log]
      cases e with
      | withdrawalRequested | withdrawalExpedited | withdrawalFinalized | withdrawalCancelled => cases other
      | queueInitialized | queueConfigUpdated | vaultReleased | escrowSwept => exact Nat.zero_add _
    | opened | expedited | cancelled => exact Nat.zero_add _
    | @finalized a n q r _ escrow escrow' _ _ _ _ _ _ label ran =>
      have event : (r.finalizedEvent q.vaultState a.request a.finalizer (escrow'.amount - escrow.amount)).paid k = 0 :=
        if_neg (ran.valid.requestQueue ▸ apart a n label)
      simp only [paidIn, FinalizeWithdrawal.after, List.map_cons, List.sum_cons, event]
      exact Nat.zero_add _

end Step

/-- Over a whole run the events pay what ever left the asset escrow. -/
theorem paid_total {c c₀ : Chain} {history : List (Chain × Instruction)} {k mint : Pubkey} {vaultVersion : Nat}
    (first : c₀.Genesis) (run : Run Step c₀ history c)
    (here : k = .withdrawalQueue (.vaultState mint vaultVersion)) :
    paidIn k c.log = sentFrom history (.associatedToken k mint) := by
  induction run with
  | start =>
    obtain ⟨_, rfl⟩ := first
    rfl
  | @next history t i u previous taken ih =>
    have reach : Reachable t := ⟨c₀, history, first.initial, previous⟩
    rw [taken.paid reach here, ih, sentFrom, sentFrom, List.map_cons, List.sum_cons]
    exact Nat.add_comm _ _

end Upshift
