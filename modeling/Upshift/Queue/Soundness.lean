import Upshift.Queue.Counters

namespace Upshift
open Guard KeyedStore

/-- Every queue is sound. -/
def Chain.QueuesSound (c : Chain) : Prop := ∀ k q, c.queues.lookup k = some q → c.QueueSound k q

/-- Every live request is sound. -/
def Chain.RequestsSound (c : Chain) : Prop := ∀ k r, c.requests.lookup k = some r → c.RequestSound k r

/-- No two live requests of a queue carry the same stamp. -/
def Chain.StampsDistinct (c : Chain) : Prop :=
  ∀ k k' r r', c.requests.lookup k = some r → c.requests.lookup k' = some r' → r.queue = r'.queue →
    r.sequence = r'.sequence → k = k'

theorem Bank.initAssociatedIfNeeded_account {b b' : Bank} {account mint authority : Pubkey}
    (ran : b.initAssociatedIfNeeded account mint authority = .ok b') :
    ∃ t, b'.accounts.lookup account = some t ∧ t.owner = authority ∧ t.mint = mint := by
  obtain ⟨_, created | ⟨rfl, found⟩⟩ := Bank.initAssociatedIfNeeded_eq_ok ran
  · obtain ⟨_, _, rfl⟩ := Bank.initializeAccount_eq_ok.mp created
    exact ⟨_, Finmap.lookup_insert _, rfl, rfl⟩
  · exact found

section Step
variable {c c' : Chain} {i : Instruction} {k : Pubkey} {q q' : WithdrawalQueue} {r r' : WithdrawalRequest}

theorem CloseVault.Ran.retires {a : CloseVault} {v : VaultState} {m : Mint} {closed revoked : Bank}
    (ran : CloseVault.Ran c a v m closed revoked) :
    revoked.mints.lookup a.shareMint = some { m with mintAuthority := none } := by
  obtain ⟨_, _, _, _, rfl⟩ := Bank.closeAccount_eq_ok.mp ran.closes
  obtain ⟨m', atMint, _, rfl⟩ := Bank.setMintAuthority_eq_ok.mp ran.revokes
  cases Option.some.inj (ran.shareMint.symm.trans atMint)
  exact Finmap.lookup_insert _

theorem Step.attended (taken : Step c i c') (formed : q.WellFormed k) (attended : c.Attended q) :
    c'.Attended q := by
  rcases attended with ⟨v, vault⟩ | ⟨m, atMint, retired, empty⟩
  · rcases taken.vault_stays vault with live | ⟨a, m, closed, revoked, _, key, ran, rfl⟩
    · exact Or.inl live
    · obtain ⟨vaultVersion, vaultKey, shareMint⟩ := formed.vault
      have same := (vaultKey.symm.trans key).trans ran.key
      simp only [Pubkey.vaultState.injEq] at same
      have mints : q.shareMint = a.shareMint := by
        rw [shareMint, ran.shareMintKey, same.1, same.2]
      exact Or.inr ⟨{ m with mintAuthority := none }, mints ▸ ran.retires, rfl, ran.retired⟩
  · obtain ⟨m', atMint', _, kept⟩ := taken.respects.mint atMint
    obtain ⟨authority, supply⟩ := kept fun a is => by rw [retired] at is; cases is
    exact Or.inr ⟨m', atMint', authority.trans retired, Nat.le_zero.mp (empty ▸ supply)⟩

theorem Step.sequence_le (taken : Step c i c') (queue : c.queues.lookup k = some q)
    (queue' : c'.queues.lookup k = some q') : q.sequence ≤ q'.sequence := by
  have rewritten : ∀ {k₀ q₀ q₁}, c.queues.lookup k₀ = some q₀ → (c.queues.insert k₀ q₁).lookup k = some q' →
      q₀.sequence ≤ q₁.sequence → q.sequence ≤ q'.sequence := by
    intro k₀ q₀ q₁ found found'
    exact @rewritten_related _ _ _ (fun q q' => q.sequence ≤ q'.sequence) _ _ _ _ _ _ _ (fun _ => le_rfl) found queue
      found'
  cases taken.request_move with
  | kept _ queues => exact (queues queue queue').sequence.ge
  | opened _ ran => exact rewritten ran.queue queue' (Nat.le_succ _)
  | expedited =>
    cases Option.some.inj (queue.symm.trans queue')
    exact le_rfl
  | cancelled _ ran => exact rewritten ran.queue queue' le_rfl
  | finalized _ ran => exact rewritten ran.valid.queue queue' le_rfl

/-- A request that is live after a step was live before, was expedited by it, or was opened by it. -/
theorem Step.request_source (taken : Step c i c') (live : c'.requests.lookup k = some r') :
    c.requests.lookup k = some r' ∨
      (∃ a expectedSequence q v r, i = .queue (.expediteRequest a expectedSequence) ∧ a.request = k ∧
        ExpediteRequest.Ran c a expectedSequence.toNat q v r ∧ r' = { r with eligibleAt := c.clock }) ∨
      ∃ a requestId shares minAssetsOut finalizer q v escrowed,
        i = .queue (.requestWithdrawal a requestId shares minAssetsOut finalizer) ∧ k = a.request ∧
          RequestWithdrawal.Ran c a requestId.toNat shares.toNat q v escrowed ∧
          r' = RequestWithdrawal.record c a requestId.toNat shares.toNat minAssetsOut.toNat finalizer q ∧
          c'.queues.lookup a.queue = some (q.opened shares.toNat) := by
  cases taken.request_move with
  | kept requests => exact Or.inl (requests ▸ live)
  | opened label ran =>
    rcases lookup_insert_cases live with ⟨rfl, rfl⟩ | ⟨_, before⟩
    · exact Or.inr (Or.inr ⟨_, _, _, _, _, _, _, _, label, rfl, ran, rfl, Finmap.lookup_insert _⟩)
    · exact Or.inl before
  | expedited label ran =>
    rcases lookup_insert_cases live with ⟨rfl, rfl⟩ | ⟨_, before⟩
    · exact Or.inr (Or.inl ⟨_, _, _, _, _, label, rfl, ran, rfl⟩)
    · exact Or.inl before
  | cancelled => exact Or.inl (lookup_erase_cases live).2
  | finalized => exact Or.inl (lookup_erase_cases live).2

/-- Apart from its eligibility a live request never changes. -/
theorem Step.request_origin (taken : Step c i c') (live : c'.requests.lookup k = some r') :
    (∃ r eligibleAt, c.requests.lookup k = some r ∧ r' = { r with eligibleAt := eligibleAt }) ∨
      ∃ a requestId shares minAssetsOut finalizer q v escrowed,
        i = .queue (.requestWithdrawal a requestId shares minAssetsOut finalizer) ∧ k = a.request ∧
          RequestWithdrawal.Ran c a requestId.toNat shares.toNat q v escrowed ∧
          r' = RequestWithdrawal.record c a requestId.toNat shares.toNat minAssetsOut.toNat finalizer q ∧
          c'.queues.lookup a.queue = some (q.opened shares.toNat) := by
  rcases taken.request_source live with before | ⟨a, _, _, _, r, _, rfl, ran, rfl⟩ | opened
  · exact Or.inl ⟨r', r'.eligibleAt, before, rfl⟩
  · exact Or.inl ⟨r, c.clock, ran.request, rfl⟩
  · exact Or.inr opened

theorem Step.requests_sound (taken : Step c i c') (sound : c.RequestsSound) : c'.RequestsSound := by
  intro k r' live
  rcases taken.request_origin live with ⟨r, _, before, rfl⟩ | ⟨a, _, _, _, _, q, _, _, rfl, rfl, ran, rfl, queue'⟩
  · obtain ⟨key, owner, positive, q, queue, first, last⟩ := sound k r before
    obtain ⟨q', queue'⟩ := Option.isSome_iff_exists.mp (taken.queue_stays (Option.isSome_of_eq_some queue))
    exact ⟨key, owner, positive, q', queue', first, last.trans (taken.sequence_le queue queue')⟩
  · exact ⟨ran.key, taken.signed _ List.mem_cons_self, ran.positive, _, queue', Nat.le_add_left 1 _, le_rfl⟩

theorem Step.stamps_distinct (taken : Step c i c') (sound : c.RequestsSound) (distinct : c.StampsDistinct) :
    c'.StampsDistinct := by
  -- A new stamp is one above every stamp its queue has issued.
  have fresh : ∀ {a requestId shares v escrowed q k r},
      RequestWithdrawal.Ran c a requestId shares q v escrowed → c.requests.lookup k = some r →
      r.queue = a.queue → r.sequence ≠ q.sequence + 1 := by
    intro a requestId shares v escrowed q k r ran live sameQueue sameStamp
    obtain ⟨_, _, _, q₀, queue, _, last⟩ := sound k r live
    cases Option.some.inj (ran.queue.symm.trans (sameQueue ▸ queue))
    omega
  intro k k' r r' live live' sameQueue sameStamp
  rcases taken.request_origin live with ⟨s, _, before, rfl⟩ | ⟨a, _, _, _, _, q, _, _, rfl, rfl, ran, rfl, _⟩
  · rcases taken.request_origin live' with ⟨s', _, before', rfl⟩ | ⟨a, _, _, _, _, q, _, _, _, _, ran, rfl, _⟩
    · exact distinct k k' s s' before before' sameQueue sameStamp
    · exact absurd sameStamp (@fresh a _ _ _ _ q k s ran before sameQueue)
  · rcases taken.request_origin live' with ⟨s', _, before', rfl⟩ | ⟨a', _, _, _, _, _, _, _, label, rfl, _⟩
    · exact absurd sameStamp.symm (@fresh a _ _ _ _ q k' s' ran before' sameQueue.symm)
    · cases label
      rfl

/-- A fresh queue has nothing pending: every live request names a queue that exists. -/
theorem InitializeQueue.Ran.sound {a : InitializeQueue} {cooldownSeconds : Nat} {v : VaultState} {m : Mint}
    {withShares withAssets : Bank} (ran : InitializeQueue.Ran c a cooldownSeconds v m withShares withAssets)
    (vaults : c.VaultsSound) (requests : c.RequestsSound) :
    (InitializeQueue.after c a cooldownSeconds withAssets).QueueSound a.queue (a.record cooldownSeconds) := by
  obtain ⟨sharesKey, _⟩ := Bank.initAssociatedIfNeeded_eq_ok ran.shares
  obtain ⟨assetsKey, _⟩ := Bank.initAssociatedIfNeeded_eq_ok ran.assets
  obtain ⟨s, atShares, sharesOwner, sharesMint⟩ := Bank.initAssociatedIfNeeded_account ran.shares
  obtain ⟨s', atShares', sharesMint', sharesOwner'⟩ := (Bank.initAssociatedIfNeeded_keeps ran.assets).account atShares
  have formed := (vaults a.vaultState v ran.vault).formed
  have none : ∀ f : WithdrawalRequest → Nat, (∀ r, 0 < f r → r.queue = a.queue) → total f c.requests = 0 := by
    intro f only
    by_contra some
    obtain ⟨k, r, live, counts⟩ := exists_of_total_pos (Nat.pos_of_ne_zero some)
    obtain ⟨_, _, _, q, queue, _⟩ := requests k r live
    rw [only r counts] at queue
    cases ran.fresh.symm.trans queue
  constructor
  · exact ⟨ran.key, ⟨v.vaultVersion, by rw [InitializeQueue.record, ran.depositMintKey]; exact formed.key,
      by rw [InitializeQueue.record, ran.shareMintKey, ran.depositMintKey]; exact formed.shareMint⟩, sharesKey, assetsKey⟩
  · exact ⟨⟨s', atShares', sharesOwner'.trans sharesOwner, sharesMint'.trans sharesMint⟩,
      Bank.initAssociatedIfNeeded_account ran.assets⟩
  · exact Nat.zero_le _
  · exact Nat.zero_le _
  · constructor
    · refine (none _ fun r counts => ?_).symm
      by_contra elsewhere
      rw [(WithdrawalRequest.weight_elsewhere elsewhere).1] at counts
      omega
    · refine (none _ fun r counts => ?_).symm
      by_contra elsewhere
      rw [(WithdrawalRequest.weight_elsewhere elsewhere).2] at counts
      omega
  · exact Or.inl ⟨v, ran.vault⟩

theorem Step.queues_sound (taken : Step c i c') (bank : c.bank.Sound) (vaults : c.VaultsSound)
    (requests : c.RequestsSound) (sound : c.QueuesSound) : c'.QueuesSound := by
  intro k q' queue'
  cases queue : c.queues.lookup k with
  | none =>
    obtain ⟨a, cooldown, _, _, _, _, rfl, rfl, ran, rfl⟩ := taken.queue_new queue queue'
    simp only [InitializeQueue.after, Finmap.lookup_insert, Option.some.injEq] at queue'
    subst queue'
    exact ran.sound vaults requests
  | some q =>
    have before := sound k q queue
    have same := taken.queue_identity queue queue'
    have escrow := taken.escrow bank before.formed before.escrows queue queue'
    have formed := before.formed.sameIdentity same
    have attended := taken.attended before.formed before.attended
    refine ⟨formed, (taken.escrows bank before.formed before.escrows).sameIdentity same,
      escrow.covered before.covered, escrow.sequence_fits before.issued, taken.counted queue queue' before.counted, ?_⟩
    unfold Chain.Attended at *
    rw [same.1, same.2.2.1]
    exact attended

theorem Reachable.requests_sound (reach : Reachable c) : c.RequestsSound := by
  refine reach.preserves ?_ ?_ fun _ _ _ _ sound taken => taken.requests_sound sound
  · intro authority k r live
    cases live
  · intro t vaults _ sound k r live
    obtain ⟨key, owner, positive, q, queue, covered, issued⟩ := sound k r live
    exact ⟨key, owner, positive, q, queue, covered, issued⟩

theorem Reachable.stamps_distinct (reach : Reachable c) : c.StampsDistinct := by
  refine reach.preserves ?_ (fun _ _ _ distinct => distinct) fun _ _ _ before distinct taken =>
    taken.stamps_distinct (Reachable.requests_sound before) distinct
  intro authority k k' r r' live
  cases live

theorem Reachable.queues_sound (reach : Reachable c) : c.QueuesSound := by
  refine reach.preserves ?_ ?_ fun _ _ _ before sound taken =>
    taken.queues_sound (Reachable.bank_sound before) (Reachable.vaults_sound before)
      (Reachable.requests_sound before) sound
  · intro authority k q queue
    cases queue
  · intro t vaults before sound k q queue
    obtain ⟨formed, escrows, covered, issued, counted, attended⟩ := sound k q queue
    refine ⟨formed, escrows, covered, issued, counted, attended.imp_left fun there => ?_⟩
    obtain ⟨v₀, vault₀⟩ := there
    obtain ⟨v, vault, _⟩ := before.still vault₀
    exact ⟨v, vault⟩

/-- The stamp of a live request is an argument a transaction can quote. -/
theorem Reachable.stamp_fits (reach : Reachable c) (live : c.requests.lookup k = some r) :
    (UInt64.ofNat r.sequence).toNat = r.sequence := by
  obtain ⟨_, _, _, q, queue, _, last⟩ := reach.requests_sound k r live
  have issued := (reach.queues_sound r.queue q queue).issued
  exact UInt64.toNat_ofNat_of_lt' (Nat.lt_succ_of_le (last.trans issued))

end Step

end Upshift
