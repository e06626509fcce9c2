import Upshift.Queue.Soundness
import Upshift.Vault.Price

namespace Upshift
open Guard KeyedStore History

/-- Shares that reach an escrow account by anything but a request of its queue. -/
def Instruction.unsolicited (i : Instruction) (c : Chain) (k escrow : Pubkey) : Nat :=
  (i.escrowAction c k).unsolicited (c.bank.balance escrow) ((c.next i).bank.balance escrow)

def Instruction.swept (i : Instruction) (c : Chain) (k escrow : Pubkey) : Nat :=
  (i.escrowAction c k).swept (c.bank.balance escrow) ((c.next i).bank.balance escrow)

/-- The shares sent to an escrow unsolicited over a history. -/
def sentTo (history : List (Chain × Instruction)) (k escrow : Pubkey) : Nat :=
  (history.map fun event => event.2.unsolicited event.1 k escrow).sum

def sweptFrom (history : List (Chain × Instruction)) (k escrow : Pubkey) : Nat :=
  (history.map fun event => event.2.swept event.1 k escrow).sum

def Chain.pendingAt (c : Chain) (k : Pubkey) : Nat := (c.queues.lookup k).elim 0 WithdrawalQueue.pendingShares

section Step
variable {c c' : Chain} {i : Instruction} {k : Pubkey} {q : WithdrawalQueue}

/-- A queue's address signs for a cancellation, a sweep or a finalization of the queue, and for nothing else. -/
theorem Step.queue_signs (taken : Step c i c') {vaultState : Pubkey}
    (acts : .withdrawalQueue vaultState ∈ i.derivedSigners) :
    (∃ a n, i = .queue (.cancelWithdrawal a n) ∧ a.queue = .withdrawalQueue vaultState) ∨
      (∃ a, i = .queue (.sweepEscrowShares a) ∧ a.queue = .withdrawalQueue vaultState) ∨
        ∃ a n, i = .queue (.finalizeWithdrawal a n) ∧ a.queue = .withdrawalQueue vaultState := by
  have ran := taken.executed
  unfold Instruction.derivedSigners at acts
  split at acts
  · obtain ⟨_, _, _, _, _, ran, _⟩ := Deposit.handlerChecked_eq_ok.mp ran
    cases (List.mem_singleton.mp acts).trans ran.valid.key
  · obtain ⟨_, _, _, _, _, ran, _⟩ := Deposit.handlerChecked_eq_ok.mp ran
    cases (List.mem_singleton.mp acts).trans ran.valid.key
  · obtain ⟨_, _, _, _, _, ran, _⟩ := Redeem.handlerChecked_eq_ok.mp ran
    cases (List.mem_singleton.mp acts).trans ran.valid.key
  · obtain ⟨_, _, _, _, _, ran, _⟩ := Redeem.handlerChecked_eq_ok.mp ran
    cases (List.mem_singleton.mp acts).trans ran.valid.key
  · obtain ⟨_, _, _, _, _, ran, _⟩ := OperatorWithdraw.handler_eq_ok ran
    cases (List.mem_singleton.mp acts).trans ran.valid.key
  · obtain ⟨_, _, _, _, ran, _⟩ := OperatorDeposit.handler_eq_ok ran
    cases (List.mem_singleton.mp acts).trans ran.valid.key
  · obtain ⟨_, _, _, _, ran, _⟩ := CloseVault.handler_eq_ok ran
    cases (List.mem_singleton.mp acts).trans ran.key
  · exact Or.inl ⟨_, _, rfl, (List.mem_singleton.mp acts).symm⟩
  · exact Or.inr (Or.inl ⟨_, rfl, (List.mem_singleton.mp acts).symm⟩)
  · obtain ⟨_, _, _, _, _, _, _, _, _, _, _, ran, _⟩ := FinalizeWithdrawal.handler_eq_ok.mp ran
    rcases List.mem_cons.mp acts with here | here
    · cases here.trans ran.redeem.valid.key
    · exact Or.inr (Or.inr ⟨_, _, rfl, (List.mem_singleton.mp here).symm⟩)
  · cases acts

/-- A queue's address signs only where the queue exists. -/
theorem Step.queue_acts (taken : Step c i c') {vaultState : Pubkey}
    (acts : .withdrawalQueue vaultState ∈ i.derivedSigners) :
    ∃ q, c.queues.lookup (.withdrawalQueue vaultState) = some q := by
  have executed := taken.executed
  rcases taken.queue_signs acts with ⟨a, _, rfl, here⟩ | ⟨a, rfl, here⟩ | ⟨a, _, rfl, here⟩
  · obtain ⟨q, _, _, ran, _⟩ := CancelWithdrawal.handler_eq_ok.mp executed
    exact ⟨q, here ▸ ran.queue⟩
  · obtain ⟨q, _, _, _, ran, _⟩ := SweepEscrowShares.handler_eq_ok.mp executed
    exact ⟨q, here ▸ ran.queue⟩
  · obtain ⟨q, _, _, _, _, _, _, _, _, _, _, ran, _⟩ := FinalizeWithdrawal.handler_eq_ok.mp executed
    exact ⟨q, here ▸ ran.valid.queue⟩

/-- Before its queue exists, an escrow can only receive. -/
theorem Step.escrowAction_absent (taken : Step c i c') (absent : c.queues.lookup k = none) :
    i.escrowAction c k = .drift := by
  have ran := taken.executed
  have gone : ∀ {queue q}, c.queues.lookup queue = some q → queue ≠ k := by
    rintro queue q found rfl
    cases absent.symm.trans found
  unfold Instruction.escrowAction
  dsimp only
  split
  · obtain ⟨_, _, _, ran, _⟩ := RequestWithdrawal.handler_eq_ok ran
    exact if_neg (gone ran.queue)
  · obtain ⟨_, _, _, ran, _⟩ := CancelWithdrawal.handler_eq_ok.mp ran
    exact if_neg (gone ran.queue)
  · obtain ⟨_, _, _, _, _, _, _, _, _, _, _, ran, _⟩ := FinalizeWithdrawal.handler_eq_ok.mp ran
    exact if_neg (gone ran.valid.queue)
  · obtain ⟨_, _, _, _, ran, _⟩ := SweepEscrowShares.handler_eq_ok.mp ran
    exact if_neg (gone ran.queue)
  · rfl

theorem Step.escrow_received (taken : Step c i c') (bank : c.bank.Sound) {vaultState shareMint : Pubkey}
    (absent : c.queues.lookup (.withdrawalQueue vaultState) = none) :
    c.bank.balance (.associatedToken (.withdrawalQueue vaultState) shareMint) ≤
      c'.bank.balance (.associatedToken (.withdrawalQueue vaultState) shareMint) := by
  refine bank.associated_kept taken.respects rfl ?_
  rintro (signs | acts)
  · cases signs
  · obtain ⟨q, queue⟩ := taken.queue_acts acts
    cases absent.symm.trans queue

/-- A queue keeps its escrow. -/
theorem Step.escrow_kept (taken : Step c i c') {escrow : Pubkey}
    (kept : ∀ q, c'.queues.lookup k = some q → q.escrowShares = escrow) :
    ∀ q, c.queues.lookup k = some q → q.escrowShares = escrow := by
  intro q queue
  obtain ⟨q', queue'⟩ := Option.isSome_iff_exists.mp (taken.queue_stays (Option.isSome_of_eq_some queue))
  exact (taken.queue_identity queue queue').2.2.2.1.symm.trans (kept q' queue')

/-- A queue begins with nothing pending. -/
theorem Step.pending_fresh (taken : Step c i c') (absent : c.queues.lookup k = none) : c'.pendingAt k = 0 := by
  unfold Chain.pendingAt
  cases queue' : c'.queues.lookup k with
  | none => rfl
  | some q' =>
    obtain ⟨_, _, _, _, _, _, _, rfl, _, rfl⟩ := taken.queue_new absent queue'
    cases Option.some.inj ((Finmap.lookup_insert _).symm.trans queue')
    rfl

/-- In one step the balance moves with the pending shares, what is sent and what is swept. -/
theorem Step.escrow_flow (reach : Reachable c) (taken : Step c i c') {vaultState shareMint : Pubkey}
    (here : k = .withdrawalQueue vaultState)
    (kept : ∀ q, c'.queues.lookup k = some q → q.escrowShares = .associatedToken k shareMint) :
    c'.bank.balance (.associatedToken k shareMint) + i.swept c k (.associatedToken k shareMint) + c.pendingAt k =
      c.bank.balance (.associatedToken k shareMint) + i.unsolicited c k (.associatedToken k shareMint) +
        c'.pendingAt k := by
  subst here
  unfold Instruction.swept Instruction.unsolicited
  rw [taken.next_eq]
  cases queue : c.queues.lookup (.withdrawalQueue vaultState) with
  | some q =>
    obtain ⟨q', queue'⟩ := Option.isSome_iff_exists.mp (taken.queue_stays (Option.isSome_of_eq_some queue))
    have sound := reach.queues_sound _ q queue
    have step := (taken.escrow reach.bank_sound sound.formed sound.escrows queue queue').balance_add
    simp only [Chain.escrow, taken.escrow_kept kept q queue, kept q' queue'] at step
    rw [Chain.pendingAt, Chain.pendingAt, queue, queue', Option.elim_some, Option.elim_some]
    exact step
  | none =>
    have received := @Step.escrow_received c c' i taken reach.bank_sound vaultState shareMint queue
    rw [taken.pending_fresh queue, taken.escrowAction_absent queue, Chain.pendingAt, queue, Option.elim_none]
    simp only [EscrowAction.swept, EscrowAction.unsolicited]
    omega

end Step

/-- Over a whole run, what an escrow holds and was swept of is what is pending and was sent. -/
theorem escrow_balance {c₀ c : Chain} {history : List (Chain × Instruction)} {k vaultState shareMint : Pubkey}
    (first : c₀.Genesis) (run : Run Step c₀ history c) (here : k = .withdrawalQueue vaultState)
    (kept : ∀ q, c.queues.lookup k = some q → q.escrowShares = .associatedToken k shareMint) :
    c.bank.balance (.associatedToken k shareMint) + sweptFrom history k (.associatedToken k shareMint) =
      c.pendingAt k + sentTo history k (.associatedToken k shareMint) := by
  induction run with
  | start =>
    obtain ⟨_, rfl⟩ := first
    rfl
  | @next history t i u previous taken ih =>
    have reach : Reachable t := ⟨c₀, history, first.initial, previous⟩
    have flow := taken.escrow_flow reach here kept
    have total := ih (taken.escrow_kept kept)
    simp only [sweptFrom, sentTo, List.map_cons, List.sum_cons] at total ⊢
    omega

/-- What is exact about a queue after `sent` shares came to its escrow unsolicited and `swept` were
taken out again. -/
structure Chain.QueueExact (c : Chain) (k : Pubkey) (q : WithdrawalQueue) (sent swept : Nat) : Prop where
  requests : q.pendingRequests = total (WithdrawalRequest.counted k) c.requests
  shares : q.pendingShares = total (WithdrawalRequest.pending k) c.requests
  positive : ∀ key r, c.requests.lookup key = some r → r.queue = k → 0 < r.shares
  stamped : ∀ key r, c.requests.lookup key = some r → r.queue = k → 1 ≤ r.sequence ∧ r.sequence ≤ q.sequence
  distinct : ∀ key key' r r', c.requests.lookup key = some r → c.requests.lookup key' = some r' → r.queue = k →
    r'.queue = k → r.sequence = r'.sequence → key = key'
  balance : c.bank.balance q.escrowShares + swept = q.pendingShares + sent
  closes : ∀ key r, c.requests.lookup key = some r → r.queue = k → ∃ closed, q.closeRequest r.shares = .ok closed
  sweepable : ∀ a, a.queue = k → c.process (.queue (.sweepEscrowShares a)) ≠ .error (.queue .mathError)
  sweeps : ∀ a c', a.queue = k → Step c (.queue (.sweepEscrowShares a)) c' →
    c'.queues.lookup k = some q ∧ c'.bank.balance q.escrowShares = q.pendingShares ∧
      c'.bank.balance a.destination = c.bank.balance a.destination + (sent - swept)

section Exact
variable {c c₀ c' : Chain} {k key : Pubkey} {q : WithdrawalQueue} {r : WithdrawalRequest}
  {history : List (Chain × Instruction)}

/-- A live request is counted in its queue, so closing it never underflows. -/
theorem Chain.Counted.closes (counted : c.Counted k q) (live : c.requests.lookup key = some r) (here : r.queue = k) :
    q.closeRequest r.shares = .ok (q.closed r.shares) := by
  have one := le_total (WithdrawalRequest.counted k) live
  have all := le_total (WithdrawalRequest.pending k) live
  rw [(WithdrawalRequest.weight_here here).1, ← counted.1] at one
  rw [(WithdrawalRequest.weight_here here).2, ← counted.2] at all
  exact WithdrawalQueue.closeRequest_eq_ok.mpr ⟨one, all, rfl⟩

theorem Chain.QueueSound.sweepable (sound : c.QueueSound k q) (queue : c.queues.lookup k = some q)
    (a : SweepEscrowShares) (here : a.queue = k) :
    FailsWith (· ≠ .queue .mathError) (c.process (.queue (.sweepEscrowShares a))) := by
  refine .bind (.require fun _ => Error.noConfusion) fun _ _ => ?_
  change FailsWith _ (SweepEscrowShares.handler c a)
  refine .bind (Chain.queueOfVault_fails.weaken ?_) fun found atQueue => ?_
  · rintro _ (⟨_, rfl⟩ | rfl)
    · exact Error.noConfusion
    · decide
  obtain ⟨q₀, v⟩ := found
  obtain ⟨queue₀, _, _, _⟩ := Chain.queueOfVault_eq_ok.mp atQueue
  cases Option.some.inj (queue.symm.trans (here ▸ queue₀))
  refine .bind (.require fun _ => Error.noConfusion) fun _ same => ?_
  have escrowKey := (require_eq_ok.mp same).1
  refine .bind (fetch_fails fun _ => Error.noConfusion) fun escrow atEscrow => ?_
  refine .bind (fetch_fails fun _ => Error.noConfusion) fun destination _ => ?_
  refine .bind (.require fun _ => Error.noConfusion) fun _ _ => ?_
  refine .bind (.require fun _ => by decide) fun _ _ => ?_
  refine .bind (.require fun _ => by decide) fun _ _ => ?_
  refine .bind ?_ fun _ _ => ?_
  · exact .bind (.require fun _ => by decide) fun _ _ => .require fun _ => by decide
  refine .bind (.okOr fun underflow => ?_) fun _ _ => ?_
  · -- The escrow holds what is pending.
    have covered := sound.covered
    simp only [Chain.escrow, Escrow.Covered, escrowKey, Bank.balance_of_lookup (fetch_eq_ok.mp atEscrow)] at covered
    have short := checkedSub_eq_none.mp underflow
    omega
  refine .bind (.require fun _ => by decide) fun _ _ => ?_
  refine .bind (Bank.transfer_fails.weaken ?_) fun _ _ => .pure _
  rintro _ ⟨_, rfl⟩
  exact Error.noConfusion

/-- In every run from before either program existed, every queue is exact. -/
theorem queue_exact (first : c₀.Genesis) (run : Run Step c₀ history c) (queue : c.queues.lookup k = some q) :
    c.QueueExact k q (sentTo history k q.escrowShares) (sweptFrom history k q.escrowShares) := by
  have reach : Reachable c := ⟨c₀, history, first.initial, run⟩
  have sound := reach.queues_sound k q queue
  have kept : ∀ q', c.queues.lookup k = some q' → q'.escrowShares = .associatedToken k q.shareMint := by
    intro q' queue'
    cases Option.some.inj (queue.symm.trans queue')
    exact sound.formed.escrowShares
  have balance := escrow_balance first run sound.formed.key kept
  rw [← sound.formed.escrowShares, Chain.pendingAt, queue, Option.elim_some] at balance
  constructor
  · exact sound.counted.1
  · exact sound.counted.2
  · exact fun key r live _ => (reach.requests_sound key r live).positive
  · intro key r live here
    obtain ⟨_, _, _, q', queue', stamped⟩ := reach.requests_sound key r live
    cases Option.some.inj (queue.symm.trans (here ▸ queue'))
    exact stamped
  · exact fun key key' r r' live live' here here' =>
      reach.stamps_distinct key key' r r' live live' (here.trans here'.symm)
  · exact balance
  · exact fun key r live here => ⟨_, sound.counted.closes live here⟩
  · exact fun a here refused => sound.sweepable queue a here _ refused rfl
  · rintro a c' here taken
    obtain ⟨q₀, v, escrow, swept, ran, rfl⟩ := SweepEscrowShares.handler_eq_ok.mp taken.executed
    cases Option.some.inj (queue.symm.trans (here ▸ ran.queue))
    obtain ⟨t, atEscrow, owner, _⟩ := sound.escrows.shares
    obtain ⟨s, atDestination, _, notQueue, _⟩ := ran.destination
    have apart : a.escrowShares ≠ a.destination := ran.escrowKey ▸
      (Bank.ne_of_owner ⟨s, atDestination, rfl⟩ ⟨t, atEscrow, owner⟩ (here ▸ notQueue)).symm
    have before := Bank.balance_of_lookup ran.atEscrow
    have covered := ran.covered
    have left := Bank.transfer_balance ran.sweeps q.escrowShares
    have arrived := Bank.transfer_balance ran.sweeps a.destination
    rw [ran.escrowKey] at balance left ⊢
    rw [if_neg apart, if_neg apart, if_pos rfl] at left
    rw [if_neg apart, if_pos rfl] at arrived
    refine ⟨queue, ?_, ?_⟩
    · simp only [SweepEscrowShares.after]
      omega
    · simp only [SweepEscrowShares.after]
      omega

end Exact

namespace Sample

def queue : Pubkey := .withdrawalQueue vault
def escrowShares : Pubkey := .associatedToken queue shareMint
def escrowAssets : Pubkey := .associatedToken queue mint
def request (requestId : Nat) : Pubkey := .withdrawalRequest queue user requestId

def requesting (requestId : Nat) : RequestWithdrawal :=
  ⟨queue, vault, user, shares user, escrowShares, shareMint, wallet user, request requestId⟩

/-- A queue with one request, and some shares sent to its escrow by mistake. -/
def queueing : List Instruction :=
  [.queue (.initializeQueue ⟨vault, admin, mint, shareMint, queue, escrowShares, escrowAssets⟩ 3600),
    .vault (.attachWithdrawalQueue ⟨vault, mint, admin⟩ queue),
    .queue (.requestWithdrawal (requesting 7) 7 50000 0 .default),
    .token (.transfer (shares user) shareMint escrowShares user 700)]

def queued : Chain := (Chain.genesis (some admin)).runAll (opening ++ queueing)

def queueOpened : WithdrawalQueue where
  vaultState := vault
  depositMint := mint
  shareMint := shareMint
  escrowShares := escrowShares
  escrowAssets := escrowAssets
  cooldownSeconds := 3600
  fulfillmentWindowSeconds := 0
  sequence := 1
  pendingRequests := 1
  pendingShares := 50000

theorem queued_queue : queued.queues.lookup queue = some queueOpened := by decide +kernel

end Sample

open Sample in
theorem queued_exact : queued.QueueExact queue queueOpened 700 0 := by
  have sent : sentTo ((Chain.genesis (some admin)).events (opening ++ queueing)) queue escrowShares = 700 := by
    decide +kernel
  have swept : sweptFrom ((Chain.genesis (some admin)).events (opening ++ queueing)) queue escrowShares = 0 := by
    decide +kernel
  have exact := queue_exact ⟨some admin, rfl⟩ (Chain.runAll_run _ (opening ++ queueing)) queued_queue
  rwa [show queueOpened.escrowShares = escrowShares from rfl, sent, swept] at exact

end Upshift
