import Upshift.Queue.Invariant

namespace Upshift
open Guard KeyedStore

/-- The redeemer's share account falls by the shares, whatever the token accounts are. -/
theorem Redeem.interactions_shares {a : Redeem} {c : Chain} {v : VaultState} {m : Mint} {paid : Bank}
    {shares fees finalAmount : Nat} (valid : a.Valid c v m)
    (ran : a.interactions c.bank shares fees finalAmount = .ok paid) :
    paid.balance a.senderShareAccount = c.bank.balance a.senderShareAccount - shares := by
  have flow := Redeem.interactions_flow ran a.senderShareAccount
  rw [if_neg valid.burner, if_pos rfl, if_neg valid.burner_apart.2, if_neg valid.burner_apart.1] at flow
  omega

section Handlers
variable {c : Chain} {q : WithdrawalQueue}

theorem RequestWithdrawal.Ran.escrow_step {a : RequestWithdrawal} {requestId shares : Nat} {v : VaultState}
    {escrowed : Bank} {r : WithdrawalRequest} (ran : RequestWithdrawal.Ran c a requestId shares q v escrowed)
    (formed : q.WellFormed a.queue) (escrows : c.bank.Escrows a.queue q) (signs : a.owner.canSign = true) :
    (c.escrow q).Step (.request shares) ((RequestWithdrawal.after c a shares q r escrowed).escrow (q.opened shares)) := by
  obtain ⟨t, atEscrow, escrowOwner, _⟩ := escrows.shares
  obtain ⟨s, atSource, sourceOwner, _⟩ := ran.source
  have payer : a.ownerShareAccount ≠ a.escrowShares := ran.escrow ▸
    Bank.ne_of_owner ⟨s, atSource, sourceOwner⟩ ⟨t, atEscrow, escrowOwner⟩ (Pubkey.ne_of_canSign signs formed.derived)
  have balance : escrowed.balance q.escrowShares = c.bank.balance q.escrowShares + shares := by
    rw [ran.escrow, Bank.transfer_balance ran.escrows, if_neg payer, if_pos rfl]
  have step : (c.escrow q).Step (.request shares) _ := .request ran.positive ran.sequenceFits
  exact step.congr rfl rfl rfl balance

theorem CancelWithdrawal.Ran.escrow_step {a : CancelWithdrawal} {expectedSequence : Nat} {r : WithdrawalRequest}
    {returned : Bank} (ran : CancelWithdrawal.Ran c a expectedSequence q r returned)
    (formed : q.WellFormed a.queue) (escrows : c.bank.Escrows a.queue q) (signs : a.owner.canSign = true) :
    (c.escrow q).Step (.cancel r.shares)
      ((CancelWithdrawal.after c a q r returned).escrow (q.closed r.shares)) := by
  obtain ⟨t, atEscrow, escrowOwner, _⟩ := escrows.shares
  obtain ⟨s, atDestination, destinationOwner, _⟩ := ran.destination
  have receiver : a.destinationShareAccount ≠ a.escrowShares := ran.escrow ▸
    Bank.ne_of_owner ⟨s, atDestination, destinationOwner⟩ ⟨t, atEscrow, escrowOwner⟩
      (Pubkey.ne_of_canSign signs formed.derived)
  have held := Bank.transfer_covered ran.returns
  rw [← ran.escrow] at held receiver
  have balance : returned.balance q.escrowShares = c.bank.balance q.escrowShares - r.shares := by
    rw [Bank.transfer_balance ran.returns, ← ran.escrow, if_neg receiver.symm, if_neg receiver.symm, if_pos rfl]
  have step : (c.escrow q).Step (.cancel r.shares) _ := .cancel ran.counted ran.covered held
  exact step.congr rfl rfl rfl balance

theorem SweepEscrowShares.Ran.escrow_step {a : SweepEscrowShares} {v : VaultState} {escrow : TokenAccount}
    {swept : Bank} (ran : SweepEscrowShares.Ran c a q v escrow swept) (escrows : c.bank.Escrows a.queue q) :
    (c.escrow q).Step .sweep ((SweepEscrowShares.after c a q escrow swept).escrow q) := by
  obtain ⟨t, atEscrow, escrowOwner, _⟩ := escrows.shares
  obtain ⟨s, atDestination, _, notQueue, _⟩ := ran.destination
  have receiver : a.destination ≠ q.escrowShares :=
    Bank.ne_of_owner ⟨s, atDestination, rfl⟩ ⟨t, atEscrow, escrowOwner⟩ notQueue
  have before := Bank.balance_of_lookup ran.atEscrow
  rw [← ran.escrowKey] at before
  have stray := ran.stray
  have balance : swept.balance q.escrowShares = q.pendingShares := by
    rw [Bank.transfer_balance ran.sweeps, ← ran.escrowKey, if_neg receiver.symm, if_neg receiver.symm, if_pos rfl]
    omega
  have step : (c.escrow q).Step .sweep _ := .sweep (by simp only [Chain.escrow]; omega)
  exact step.congr rfl rfl rfl balance

theorem FinalizeWithdrawal.Ran.escrow_step {a : FinalizeWithdrawal} {expectedSequence : Nat}
    {r : WithdrawalRequest} {recipient escrow escrow' : TokenAccount} {v : VaultState}
    {m : Mint} {assets fees : Nat} {paid forwarded : Bank} {payout : Nat}
    (ran : FinalizeWithdrawal.Ran c a expectedSequence q r recipient escrow escrow' v m assets fees paid forwarded) :
    (c.escrow q).Step (.finalize r.shares)
      ((FinalizeWithdrawal.after c a q r v assets payout forwarded).escrow (q.closed r.shares)) := by
  have valid := ran.redeem.valid
  have notSender : a.escrowShares ≠ a.escrowAssets := valid.burner_apart.1
  have notRecipient : a.escrowShares ≠ a.recipientTokenAccount := ran.recipient_apart.2.symm
  have burned : paid.balance a.escrowShares = c.bank.balance a.escrowShares - r.shares :=
    Redeem.interactions_shares valid ran.redeem.interactions
  have held : r.shares ≤ c.bank.balance a.escrowShares :=
    (Redeem.interactions_covered ran.redeem.interactions).1
  rw [← ran.valid.escrowShares] at burned held notSender notRecipient
  have balance : forwarded.balance q.escrowShares = c.bank.balance q.escrowShares - r.shares := by
    rw [Bank.transfer_balance ran.forwards, if_neg notRecipient, if_neg notSender, ite_self, burned]
  have step : (c.escrow q).Step (.finalize r.shares) _ := .finalize ran.counted ran.covered held
  exact step.congr rfl rfl rfl balance

end Handlers

/-- What an instruction means to the queue at `k`. -/
def Instruction.escrowAction (i : Instruction) (c : Chain) (k : Pubkey) : EscrowAction :=
  let shares (request : Pubkey) := (c.requests.lookup request).elim 0 WithdrawalRequest.shares
  match i with
  | .queue (.requestWithdrawal a _ shares _ _) => if a.queue = k then .request shares.toNat else .drift
  | .queue (.cancelWithdrawal a _) => if a.queue = k then .cancel (shares a.request) else .drift
  | .queue (.finalizeWithdrawal a _) => if a.queue = k then .finalize (shares a.request) else .drift
  | .queue (.sweepEscrowShares a) => if a.queue = k then .sweep else .drift
  | _ => .drift

theorem Instruction.quiet_escrowAction {i : Instruction} (label : i.quiet) (c : Chain) (k : Pubkey) :
    i.escrowAction c k = .drift := by
  unfold Instruction.quiet at label
  split at label
  all_goals first | rfl | cases label

theorem Instruction.configures_escrowAction {i : Instruction} {k' : Pubkey} (label : i.configures = some k')
    (c : Chain) (k : Pubkey) : i.escrowAction c k = .drift := by
  unfold Instruction.configures at label
  split at label
  all_goals first | rfl | cases label

theorem Instruction.detaches_escrowAction {i : Instruction} {keys : Pubkey × Pubkey}
    (label : i.detaches = some keys) (c : Chain) (k : Pubkey) : i.escrowAction c k = .drift := by
  unfold Instruction.detaches at label
  split at label
  all_goals first | rfl | cases label

theorem Instruction.schedules_escrowAction {i : Instruction} {k' : Pubkey} (label : i.schedules = some k')
    (c : Chain) (k : Pubkey) : i.escrowAction c k = .drift := by
  unfold Instruction.schedules at label
  split at label
  all_goals first | rfl | cases label

theorem Instruction.deposits_escrowAction {i : Instruction} {d : Deposit × Nat × Nat}
    (label : i.deposits = some d) (c : Chain) (k : Pubkey) : i.escrowAction c k = .drift := by
  obtain ⟨_, rfl, _⟩ | ⟨_, _, rfl, _⟩ := Instruction.deposits_eq_some label
  · rfl
  · rfl

theorem Instruction.redeems_escrowAction {i : Instruction} {d : Redeem × Nat × Nat}
    (label : i.redeems = some d) (c : Chain) (k : Pubkey) : i.escrowAction c k = .drift := by
  obtain ⟨_, rfl, _⟩ | ⟨_, _, rfl, _⟩ := Instruction.redeems_eq_some label
  · rfl
  · rfl

section Step
variable {c c' : Chain} {i : Instruction} {k : Pubkey} {q q' : WithdrawalQueue}

/-- The fields of a queue that its escrow and its addresses read. -/
def WithdrawalQueue.SameCounters (q q' : WithdrawalQueue) : Prop :=
  q'.escrowShares = q.escrowShares ∧ q'.sequence = q.sequence ∧ q'.pendingRequests = q.pendingRequests ∧
    q'.pendingShares = q.pendingShares

theorem WithdrawalQueue.SameCounters.refl (q : WithdrawalQueue) : q.SameCounters q := ⟨rfl, rfl, rfl, rfl⟩

/-- A step that does not act in the queue's name only lets its escrow drift. -/
theorem Step.escrow_drift (taken : Step c i c') (bank : c.bank.Sound) (formed : q.WellFormed k)
    (escrows : c.bank.Escrows k q) (other : k ∉ i.derivedSigners) (same : q.SameCounters q') :
    (c.escrow q).Step .drift (c'.escrow q') := by
  have outside : ¬i.Authorizes k := by
    rintro (signs | acts)
    · exact absurd (signs.symm.trans formed.derived) Bool.noConfusion
    · exact other acts
  obtain ⟨_, donated, _⟩ := escrows.respects taken.respects bank formed outside
  obtain ⟨escrowShares, sequence, requests, shares⟩ := same
  have step : (c.escrow q).Step .drift _ := .drift donated
  exact step.congr sequence requests shares (by simp only [Chain.escrow, escrowShares])

/-- Every step of the system is a step of each queue's escrow. -/
theorem Step.escrow (taken : Step c i c') (bank : c.bank.Sound) (formed : q.WellFormed k)
    (escrows : c.bank.Escrows k q) (queue : c.queues.lookup k = some q) (queue' : c'.queues.lookup k = some q') :
    (c.escrow q).Step (i.escrowAction c k) (c'.escrow q') := by
  have signed := taken.signed
  have drift := fun other same => @Step.escrow_drift c c' i k q q' taken bank formed escrows other same
  have notVault : ∀ {depositMint vaultVersion}, k ≠ .vaultState depositMint vaultVersion := by
    rw [formed.key]
    exact Pubkey.noConfusion
  have apart : ∀ {a : Pubkey} {depositMint : Pubkey} {vaultVersion : Nat},
      a = .vaultState depositMint vaultVersion → k ∉ [a] :=
    fun key acts => notVault ((List.mem_singleton.mp acts).trans key)
  cases taken.move with
  | quiet label _ _ _ queues =>
    cases Option.some.inj ((queues ▸ queue').symm.trans queue)
    rw [Instruction.quiet_escrowAction label]
    exact drift ((Instruction.quiet_action label c k).2 ▸ List.not_mem_nil) (.refl q)
  | configured label _ _ _ _ _ queues =>
    cases Option.some.inj ((queues ▸ queue').symm.trans queue)
    rw [Instruction.configures_escrowAction label]
    exact drift ((Instruction.configures_action label c k).2 ▸ List.not_mem_nil) (.refl q)
  | detached label _ _ _ _ _ queues =>
    cases Option.some.inj ((queues ▸ queue').symm.trans queue)
    rw [Instruction.detaches_escrowAction label]
    exact drift ((Instruction.detaches_action label c k).2 ▸ List.not_mem_nil) (.refl q)
  | scheduled label found change _ _ _ queues =>
    have derived := (Instruction.schedules_action label c k).2
    rw [Instruction.schedules_escrowAction label]
    rcases lookup_rewritten queue (queues ▸ queue') with ⟨rfl, rfl⟩ | ⟨_, rfl⟩
    · cases Option.some.inj (queue.symm.trans found)
      exact drift (derived ▸ List.not_mem_nil)
        ⟨change.escrowShares, change.sequence, change.pendingRequests, change.pendingShares⟩
    · exact drift (derived ▸ List.not_mem_nil) (.refl _)
  | attached label | reported label | registered label | deregistered label | settled label
  | initialized label | expedited label | banked label =>
    subst label
    cases Option.some.inj (queue'.symm.trans queue)
    exact drift List.not_mem_nil (.refl q)
  | closed label ran =>
    subst label
    cases Option.some.inj (queue'.symm.trans queue)
    exact drift (apart ran.key) (.refl q)
  | deposited label ran =>
    cases Option.some.inj (queue'.symm.trans queue)
    rw [Instruction.deposits_escrowAction label]
    exact drift ((Instruction.deposits_signers label).2 ▸ apart ran.valid.key) (.refl q)
  | redeemed label ran =>
    cases Option.some.inj (queue'.symm.trans queue)
    rw [Instruction.redeems_escrowAction label]
    exact drift ((Instruction.redeems_signers label).2 ▸ apart ran.valid.key) (.refl q)
  | withdrew label ran =>
    subst label
    cases Option.some.inj (queue'.symm.trans queue)
    exact drift (apart ran.valid.key) (.refl q)
  | returned label ran =>
    subst label
    cases Option.some.inj (queue'.symm.trans queue)
    exact drift (apart ran.valid.key) (.refl q)
  | opened label ran =>
    subst label
    rcases lookup_rewritten queue queue' with ⟨rfl, _⟩ | ⟨_, rfl⟩
    · cases ran.fresh.symm.trans queue
    · exact drift List.not_mem_nil (.refl _)
  | requested label ran =>
    subst label
    rcases lookup_rewritten queue queue' with ⟨rfl, rfl⟩ | ⟨other, rfl⟩
    · cases Option.some.inj (queue.symm.trans ran.queue)
      simp only [Instruction.escrowAction, if_true]
      exact ran.escrow_step formed escrows (signed _ List.mem_cons_self)
    · simp only [Instruction.escrowAction, Ne.symm other, if_false]
      exact drift List.not_mem_nil (.refl _)
  | cancelled label ran =>
    subst label
    rcases lookup_rewritten queue queue' with ⟨rfl, rfl⟩ | ⟨other, rfl⟩
    · cases Option.some.inj (queue.symm.trans ran.queue)
      simp only [Instruction.escrowAction, if_true, ran.request, Option.elim_some]
      exact ran.escrow_step formed escrows (signed _ List.mem_cons_self)
    · simp only [Instruction.escrowAction, Ne.symm other, if_false]
      exact drift (fun acts => other (List.mem_singleton.mp acts)) (.refl _)
  | @swept a q₀ v escrow swept label ran =>
    subst label
    cases Option.some.inj (queue'.symm.trans queue)
    by_cases here : a.queue = k
    · subst here
      cases Option.some.inj (queue.symm.trans ran.queue)
      simp only [Instruction.escrowAction, if_true]
      exact ran.escrow_step escrows
    · simp only [Instruction.escrowAction, here, if_false]
      exact drift (fun acts => here (List.mem_singleton.mp acts).symm) (.refl _)
  | finalized label ran =>
    subst label
    rcases lookup_rewritten queue queue' with ⟨rfl, rfl⟩ | ⟨other, rfl⟩
    · cases Option.some.inj (queue.symm.trans ran.valid.queue)
      simp only [Instruction.escrowAction, if_true, ran.valid.request, Option.elim_some]
      exact ran.escrow_step
    · simp only [Instruction.escrowAction, Ne.symm other, if_false]
      refine drift (fun acts => ?_) (.refl _)
      rcases List.mem_cons.mp acts with here | acts
      · exact notVault (here.trans ran.redeem.valid.key)
      · exact other (List.mem_singleton.mp acts)

end Step

end Upshift
