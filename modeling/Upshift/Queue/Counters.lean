import Upshift.Queue.Refinement

namespace Upshift
open Guard KeyedStore

theorem WithdrawalQueue.Configured.refl (q : WithdrawalQueue) : q.Configured q :=
  ⟨rfl, rfl, rfl, rfl, rfl, rfl, rfl, rfl⟩

/-- What a step does to the live requests and to the counters that go with them. -/
inductive RequestMove (c : Chain) (i : Instruction) : Chain → Prop
  | kept {c'} (requests : c'.requests = c.requests)
      (queues : ∀ {k q q'}, c.queues.lookup k = some q → c'.queues.lookup k = some q' → q.Configured q') :
      RequestMove c i c'
  | opened {a requestId shares minAssetsOut finalizer q v escrowed}
      (label : i = .queue (.requestWithdrawal a requestId shares minAssetsOut finalizer))
      (ran : RequestWithdrawal.Ran c a requestId.toNat shares.toNat q v escrowed) :
      RequestMove c i (RequestWithdrawal.after c a shares.toNat q
        (RequestWithdrawal.record c a requestId.toNat shares.toNat minAssetsOut.toNat finalizer q) escrowed)
  | expedited {a expectedSequence q v r} (label : i = .queue (.expediteRequest a expectedSequence))
      (ran : ExpediteRequest.Ran c a expectedSequence.toNat q v r) : RequestMove c i (ExpediteRequest.after c a q r)
  | cancelled {a expectedSequence q r returned} (label : i = .queue (.cancelWithdrawal a expectedSequence))
      (ran : CancelWithdrawal.Ran c a expectedSequence.toNat q r returned) :
      RequestMove c i (CancelWithdrawal.after c a q r returned)
  | finalized {a expectedSequence q r recipient escrow escrow' v m assets fees paid forwarded}
      (label : i = .queue (.finalizeWithdrawal a expectedSequence))
      (ran : FinalizeWithdrawal.Ran c a expectedSequence.toNat q r recipient escrow escrow' v m assets fees paid
        forwarded) :
      RequestMove c i (FinalizeWithdrawal.after c a q r v assets (escrow'.amount - escrow.amount) forwarded)

section Step
variable {c c' : Chain} {i : Instruction} {k : Pubkey} {q q' : WithdrawalQueue} {r r' : WithdrawalRequest}

theorem Step.request_move (taken : Step c i c') : RequestMove c i c' := by
  have unchanged : ∀ {queues : Store Pubkey WithdrawalQueue}, queues = c.queues →
      ∀ {k q q'}, c.queues.lookup k = some q → queues.lookup k = some q' → q.Configured q' := by
    rintro _ rfl k q q' queue queue'
    cases Option.some.inj (queue.symm.trans queue')
    exact .refl q
  cases taken.move with
  | requested label ran => exact .opened label ran
  | expedited label ran => exact .expedited label ran
  | cancelled label ran => exact .cancelled label ran
  | finalized label ran => exact .finalized label ran
  | quiet _ _ _ _ queues requests => exact .kept requests (unchanged queues)
  | configured _ _ _ _ _ _ queues requests => exact .kept requests (unchanged queues)
  | detached _ _ _ _ _ _ queues requests => exact .kept requests (unchanged queues)
  | scheduled _ found change _ _ _ queues requests =>
    exact .kept requests fun queue queue' =>
      rewritten_related WithdrawalQueue.Configured.refl found queue (queues ▸ queue') change
  | opened _ ran =>
    refine .kept rfl fun queue queue' => ?_
    rcases lookup_rewritten queue queue' with ⟨rfl, _⟩ | ⟨_, rfl⟩
    · cases ran.fresh.symm.trans queue
    · exact .refl _
  | attached | reported | registered | deregistered | settled | initialized | closed | deposited | redeemed
  | withdrew | returned | swept | banked => exact .kept rfl (unchanged rfl)

/-- A queue that appears in a step was just initialized. -/
theorem Step.queue_new (taken : Step c i c') (absent : c.queues.lookup k = none)
    (queue' : c'.queues.lookup k = some q') :
    ∃ a cooldown v m withShares withAssets, i = .queue (.initializeQueue a cooldown) ∧ k = a.queue ∧
      InitializeQueue.Ran c a cooldown.toNat v m withShares withAssets ∧
        c' = InitializeQueue.after c a cooldown.toNat withAssets := by
  have rewritten : ∀ {k₀ q₀ w}, c.queues.lookup k₀ = some q₀ → (c.queues.insert k₀ w).lookup k ≠ some q' := by
    intro k₀ q₀ w found found'
    rcases lookup_insert_cases found' with ⟨rfl, _⟩ | ⟨_, before⟩
    · cases absent.symm.trans found
    · cases absent.symm.trans before
  cases taken.move with
  | opened label ran =>
    rcases lookup_insert_cases queue' with ⟨rfl, _⟩ | ⟨_, before⟩
    · exact ⟨_, _, _, _, _, _, label, rfl, ran, rfl⟩
    · cases absent.symm.trans before
  | quiet _ _ _ _ queues => cases absent.symm.trans (queues ▸ queue')
  | configured _ _ _ _ _ _ queues => cases absent.symm.trans (queues ▸ queue')
  | detached _ _ _ _ _ _ queues => cases absent.symm.trans (queues ▸ queue')
  | scheduled _ found _ _ _ _ queues => exact absurd (queues ▸ queue') (rewritten found)
  | requested _ ran => exact absurd queue' (rewritten ran.queue)
  | cancelled _ ran => exact absurd queue' (rewritten ran.queue)
  | finalized _ ran => exact absurd queue' (rewritten ran.valid.queue)
  | attached | reported | registered | deregistered | settled | initialized | closed | deposited | redeemed
  | withdrew | returned | swept | banked | expedited => cases absent.symm.trans queue'

/-- The fields of a queue that no step changes. -/
def WithdrawalQueue.SameIdentity (q q' : WithdrawalQueue) : Prop :=
  q'.vaultState = q.vaultState ∧ q'.depositMint = q.depositMint ∧ q'.shareMint = q.shareMint ∧
    q'.escrowShares = q.escrowShares ∧ q'.escrowAssets = q.escrowAssets

theorem WithdrawalQueue.SameIdentity.refl (q : WithdrawalQueue) : q.SameIdentity q := ⟨rfl, rfl, rfl, rfl, rfl⟩

theorem Step.queue_identity (taken : Step c i c') (queue : c.queues.lookup k = some q)
    (queue' : c'.queues.lookup k = some q') : q.SameIdentity q' := by
  cases taken.request_move with
  | kept _ queues =>
    have change := queues queue queue'
    exact ⟨change.vaultState, change.depositMint, change.shareMint, change.escrowShares, change.escrowAssets⟩
  | opened _ ran =>
    exact rewritten_related WithdrawalQueue.SameIdentity.refl ran.queue queue queue' ⟨rfl, rfl, rfl, rfl, rfl⟩
  | expedited =>
    cases Option.some.inj (queue.symm.trans queue')
    exact .refl _
  | cancelled _ ran =>
    exact rewritten_related WithdrawalQueue.SameIdentity.refl ran.queue queue queue' ⟨rfl, rfl, rfl, rfl, rfl⟩
  | finalized _ ran =>
    exact rewritten_related WithdrawalQueue.SameIdentity.refl ran.valid.queue queue queue' ⟨rfl, rfl, rfl, rfl, rfl⟩

theorem WithdrawalQueue.WellFormed.sameIdentity (formed : q.WellFormed k) (same : q.SameIdentity q') :
    q'.WellFormed k := by
  obtain ⟨vaultState, depositMint, shareMint, escrowShares, escrowAssets⟩ := same
  exact ⟨vaultState ▸ formed.key, by rw [vaultState, depositMint, shareMint]; exact formed.vault,
    by rw [escrowShares, shareMint]; exact formed.escrowShares,
    by rw [escrowAssets, depositMint]; exact formed.escrowAssets⟩

theorem Bank.Escrows.sameIdentity {b : Bank} (escrows : b.Escrows k q) (same : q.SameIdentity q') :
    b.Escrows k q' := by
  obtain ⟨_, depositMint, shareMint, escrowShares, escrowAssets⟩ := same
  exact ⟨by rw [escrowShares, shareMint]; exact escrows.shares,
    by rw [escrowAssets, depositMint]; exact escrows.assets⟩

theorem Step.escrows (taken : Step c i c') (bank : c.bank.Sound) (formed : q.WellFormed k)
    (escrows : c.bank.Escrows k q) : c'.bank.Escrows k q := by
  by_cases program : (∃ t, i = .token t) ∨ ∃ a, i = .vault (.closeVault a)
  · refine (escrows.respects taken.respects bank formed ?_).1
    rintro (signs | acts)
    · exact absurd (signs.symm.trans formed.derived) Bool.noConfusion
    · rcases program with ⟨t, rfl⟩ | ⟨a, rfl⟩
      · cases acts
      · obtain ⟨_, _, _, _, ran, _⟩ := CloseVault.handler_eq_ok taken.executed
        cases formed.key.symm.trans ((List.mem_singleton.mp acts).trans ran.key)
  · refine escrows.keeps (taken.keeps (fun t label => program (Or.inl ⟨t, label⟩)) fun a label => ?_)
    exact program (Or.inr ⟨a, label⟩)

theorem WithdrawalRequest.weight_here (here : r.queue = k) : r.counted k = 1 ∧ r.pending k = r.shares :=
  ⟨if_pos here, if_pos here⟩

theorem WithdrawalRequest.weight_elsewhere (other : r.queue ≠ k) : r.counted k = 0 ∧ r.pending k = 0 :=
  ⟨if_neg other, if_neg other⟩

/-- A request that goes takes its own weight out of both counters. -/
theorem Chain.Counted.removed {key : Pubkey} (counted : c.Counted k q) (found : c.requests.lookup key = some r)
    (requests : c'.requests = c.requests.erase key)
    (rewritten : r.queue = k ∧ q' = q.closed r.shares ∨ r.queue ≠ k ∧ q' = q) : c'.Counted k q' := by
  obtain ⟨count, shares⟩ := counted
  have lessCount := total_erase (WithdrawalRequest.counted k) found
  have lessShares := total_erase (WithdrawalRequest.pending k) found
  rw [← requests] at lessCount lessShares
  rcases rewritten with ⟨here, rfl⟩ | ⟨other, rfl⟩
  · obtain ⟨one, all⟩ := WithdrawalRequest.weight_here here
    simp only [Chain.Counted, WithdrawalQueue.closed]
    omega
  · obtain ⟨none, nothing⟩ := WithdrawalRequest.weight_elsewhere other
    simp only [Chain.Counted]
    omega

theorem Step.counted (taken : Step c i c') (queue : c.queues.lookup k = some q)
    (queue' : c'.queues.lookup k = some q') (counted : c.Counted k q) : c'.Counted k q' := by
  cases taken.request_move with
  | kept requests queues =>
    have change := queues queue queue'
    rw [Chain.Counted, requests, change.pendingRequests, change.pendingShares]
    exact counted
  | @opened a requestId shares minAssetsOut finalizer q₀ v escrowed label ran =>
    obtain ⟨count, sum⟩ := counted
    have moreCount := total_insert_fresh (WithdrawalRequest.counted k)
      (RequestWithdrawal.record c a requestId.toNat shares.toNat minAssetsOut.toNat finalizer q₀) ran.fresh
    have moreShares := total_insert_fresh (WithdrawalRequest.pending k)
      (RequestWithdrawal.record c a requestId.toNat shares.toNat minAssetsOut.toNat finalizer q₀) ran.fresh
    rcases lookup_rewritten queue queue' with ⟨rfl, rfl⟩ | ⟨other, rfl⟩
    · cases Option.some.inj (queue.symm.trans ran.queue)
      have here : (RequestWithdrawal.record c a requestId.toNat shares.toNat minAssetsOut.toNat finalizer q).queue =
          a.queue := rfl
      obtain ⟨one, all⟩ := WithdrawalRequest.weight_here here
      simp only [Chain.Counted, RequestWithdrawal.after, WithdrawalQueue.opened]
      simp only [RequestWithdrawal.record] at all moreCount moreShares one ⊢
      omega
    · have elsewhere : (RequestWithdrawal.record c a requestId.toNat shares.toNat minAssetsOut.toNat finalizer
          q₀).queue ≠ k := Ne.symm other
      obtain ⟨none, nothing⟩ := WithdrawalRequest.weight_elsewhere elsewhere
      simp only [Chain.Counted, RequestWithdrawal.after]
      omega
  | @expedited a _ q₀ v r label ran =>
    obtain ⟨count, sum⟩ := counted
    cases Option.some.inj (queue.symm.trans queue')
    have sameCount := total_insert (WithdrawalRequest.counted k) { r with eligibleAt := c.clock } ran.request
    have sameShares := total_insert (WithdrawalRequest.pending k) { r with eligibleAt := c.clock } ran.request
    exact ⟨count.trans (Nat.add_right_cancel sameCount).symm, sum.trans (Nat.add_right_cancel sameShares).symm⟩
  | cancelled _ ran =>
    refine counted.removed ran.request rfl ?_
    rw [ran.requestQueue]
    rcases lookup_rewritten queue queue' with ⟨rfl, rfl⟩ | ⟨other, rfl⟩
    · cases Option.some.inj (queue.symm.trans ran.queue)
      exact Or.inl ⟨rfl, rfl⟩
    · exact Or.inr ⟨Ne.symm other, rfl⟩
  | finalized _ ran =>
    refine counted.removed ran.valid.request rfl ?_
    rw [ran.valid.requestQueue]
    rcases lookup_rewritten queue queue' with ⟨rfl, rfl⟩ | ⟨other, rfl⟩
    · cases Option.some.inj (queue.symm.trans ran.valid.queue)
      exact Or.inl ⟨rfl, rfl⟩
    · exact Or.inr ⟨Ne.symm other, rfl⟩

end Step

end Upshift
