import Upshift.Queue.Equivalence
import Upshift.Queue.Lifecycle

namespace Upshift
open Guard KeyedStore History

/-- Whether an instruction redeems shares of the vault at `k`, directly or through its queue. -/
def Instruction.redeemsFrom : Instruction → Pubkey → Bool
  | .vault (.redeem a _), k => a.vaultState = k
  | .vault (.redeemChecked a _ _), k => a.vaultState = k
  | .queue (.finalizeWithdrawal a _), k => a.vaultState = k
  | _, _ => false

/-- A redemption by the queue of a live request that is due, and whose cooldown has passed unless the
vault's admin or operator of the time expedited it. -/
structure Chain.Matured (c c' : Chain) (history : List (Chain × Instruction)) (a : FinalizeWithdrawal)
    (r : WithdrawalRequest) (q : WithdrawalQueue) (v : VaultState) : Prop where
  live : c.requests.lookup a.request = some r
  closed : c'.requests.lookup a.request = none
  queue : c.queues.lookup r.queue = some q
  escrow : c'.bank.balance q.escrowShares + r.shares = c.bank.balance q.escrowShares
  supply : c'.bank.supply v.shareMint + r.shares = c.bank.supply v.shareMint
  eligible : r.eligibleAt ≤ c.clock
  unexpired : r.expiresAt = 0 ∨ c.clock < r.expiresAt
  admitted : a.finalizer = r.owner ∨ r.finalizer = .default ∨ a.finalizer = r.finalizer
  requested : ∃ later t i earlier o q₀, history = later ++ (t, i) :: earlier ∧ i.opening t = some o ∧ r.Same o ∧
    t.queues.lookup r.queue = some q₀ ∧ r.requestedAt = t.clock ∧
      (c.clock < r.requestedAt + q₀.cooldownSeconds →
        ∃ t' a' expectedSequence v', (t', .queue (.expediteRequest a' expectedSequence)) ∈ later ∧
          a'.request = a.request ∧ expectedSequence.toNat = r.sequence ∧
            t'.vaults.lookup q.vaultState = some v' ∧ (a'.authority = v'.admin ∨ a'.authority = v'.operator))

/-- What the queue gate of the vault at `k` guarantees after a history. -/
structure Chain.Gated (c : Chain) (history : List (Chain × Instruction)) (k : Pubkey) (v : VaultState) : Prop where
  authority : v.withdrawalQueueAuthority = .default ∨ v.withdrawalQueueAuthority = .withdrawalQueue k ∧
    ∃ q, c.queues.lookup (.withdrawalQueue k) = some q ∧ q.vaultState = k
  redeems : ∀ queue i c', v.withdrawalQueue = some queue → Step c i c' → i.redeemsFrom k →
    ∃ a expectedSequence r q, i = .queue (.finalizeWithdrawal a expectedSequence) ∧ a.vaultState = k ∧
      r.queue = queue ∧ r.sequence = expectedSequence.toNat ∧ c.Matured c' history a r q v
  clears : ∀ queue i c', v.withdrawalQueue = some queue → Step c i c' →
    (∃ v', c'.vaults.lookup k = some v' ∧ v'.withdrawalQueue = some queue) ∨
      (∃ a, i = .queue (.releaseVault a) ∧ a.vaultState = k ∧ a.admin = v.admin) ∨
        ∃ a, i = .vault (.closeVault a) ∧ a.vaultState = k

section Gate
variable {c c₀ c' : Chain} {i : Instruction} {k queue : Pubkey} {v : VaultState} {r : WithdrawalRequest}
  {history : List (Chain × Instruction)}

theorem WithdrawalRequest.mayFinalize_iff {caller : Pubkey} :
    r.mayFinalize caller ↔ caller = r.owner ∨ r.finalizer = .default ∨ caller = r.finalizer := by
  unfold WithdrawalRequest.mayFinalize WithdrawalRequest.allowedFinalizer
  by_cases owner : caller = r.owner
  · rw [if_pos owner]
    exact iff_of_true rfl (Or.inl owner)
  · by_cases anyone : r.finalizer = .default
    · rw [if_neg owner, if_neg (not_not.mpr anyone)]
      exact iff_of_true rfl (Or.inr (Or.inl anyone))
    · rw [if_neg owner, if_pos anyone]
      simp only [owner, anyone, false_or, decide_eq_true_eq, @eq_comm _ r.finalizer]

/-- While a queue is attached nobody redeems in their own name: its address cannot sign. -/
theorem Step.gated (reach : Reachable c) (taken : Step c i c') (vault : c.vaults.lookup k = some v)
    (attached : v.withdrawalQueue = some queue) (redeems : i.redeemsFrom k) :
    ∃ a expectedSequence, i = .queue (.finalizeWithdrawal a expectedSequence) ∧ a.vaultState = k := by
  have formed := (reach.vaults_sound k v vault).formed
  have signed := taken.signed
  have ran := taken.executed
  have refused : ∀ {a : Redeem} {shares minAssetsOut v₀ m assets fees paid}, a.vaultState = k →
      a.signer.canSign = true → ¬Redeem.Ran c a shares minAssetsOut v₀ m assets fees paid := by
    intro a shares minAssetsOut v₀ m assets fees paid here signs ran
    cases Option.some.inj ((here ▸ ran.valid.vault).symm.trans vault)
    rcases ran.gate with none | only
    · cases none.symm.trans attached
    · cases Option.some.inj (only.symm.trans attached)
      rw [formed.queue_key attached] at signs
      cases signs
  unfold Instruction.redeemsFrom at redeems
  split at redeems
  · obtain ⟨_, _, _, _, _, spec, _⟩ := Redeem.handlerChecked_eq_ok.mp ran
    exact absurd spec (refused (of_decide_eq_true redeems) (signed _ List.mem_cons_self))
  · obtain ⟨_, _, _, _, _, spec, _⟩ := Redeem.handlerChecked_eq_ok.mp ran
    exact absurd spec (refused (of_decide_eq_true redeems) (signed _ List.mem_cons_self))
  · exact ⟨_, _, rfl, of_decide_eq_true redeems⟩
  · cases redeems

/-- When a request is made its schedule is set by the clock and the cooldown of its queue. -/
theorem Instruction.opening_schedule {o : WithdrawalRequest} (opening : i.opening c = some o) :
    ∃ q, c.queues.lookup o.queue = some q ∧ o.requestedAt = c.clock ∧
      o.eligibleAt = c.clock + q.cooldownSeconds := by
  unfold Instruction.opening at opening
  split at opening
  · obtain ⟨q, queue, rfl⟩ := Option.map_eq_some_iff.mp opening
    exact ⟨q, queue, rfl, rfl⟩
  · cases opening

/-- An expedite names the request, its stamp and somebody in charge of the vault behind its queue. -/
theorem ExpeditedIn.authority {key : Pubkey} (expedited : ExpeditedIn history key r.sequence)
    (address : key = .withdrawalRequest r.queue r.owner r.requestId) (queueKey : r.queue = .withdrawalQueue k) :
    ∃ t a expectedSequence v, (t, .queue (.expediteRequest a expectedSequence)) ∈ history ∧
      a.request = key ∧ expectedSequence.toNat = r.sequence ∧ t.vaults.lookup k = some v ∧
        (a.authority = v.admin ∨ a.authority = v.operator) := by
  obtain ⟨t, a, n, q, v, r', member, here, stamp, ran⟩ := expedited
  have same := (ran.key.symm.trans here).trans address
  simp only [Pubkey.withdrawalRequest.injEq] at same
  have vault := (ran.queueKey.symm.trans (ran.requestQueue.symm.trans same.1)).trans queueKey
  simp only [Pubkey.withdrawalQueue.injEq] at vault
  exact ⟨t, a, n, v, member, here, ran.sequence.symm.trans stamp, vault ▸ ran.vault, ran.authority⟩

theorem live_matured {a : FinalizeWithdrawal} {expectedSequence : Nat} {q : WithdrawalQueue}
    {recipient escrow escrow' : TokenAccount} {m : Mint} {assets fees : Nat} {paid forwarded : Bank}
    (first : c₀.Genesis) (run : Run Step c₀ history c) (formed : v.WellFormed a.vaultState)
    (ran : FinalizeWithdrawal.Ran c a expectedSequence q r recipient escrow escrow' v m assets fees paid forwarded) :
    c.Matured (FinalizeWithdrawal.after c a q r v assets (escrow'.amount - escrow.amount) forwarded) history a r q
      v := by
  have valid := ran.valid
  have queue := valid.queue
  rw [← valid.requestQueue] at queue
  have eligible : r.eligibleAt ≤ c.clock := of_decide_eq_true ran.eligible
  have queueKey : r.queue = .withdrawalQueue q.vaultState := by
    rw [valid.requestQueue, valid.queueKey, valid.queueVault]
  constructor
  · exact valid.request
  · change (c.requests.erase a.request).lookup a.request = none
    exact Finmap.lookup_erase _ _
  · exact queue
  · exact (@FinalizeWithdrawal.Ran.escrow_step _ _ _ _ _ _ _ _ _ _ _ _ _ _ _ ran).finalize_balance
  · have supply := (ran.redeem.redeemed formed).2
    change forwarded.supply v.shareMint + r.shares = _
    rw [Bank.transfer_supply ran.forwards]
    exact supply
  · exact eligible
  · exact WithdrawalRequest.isExpired_eq_false.mp ran.unexpired
  · exact WithdrawalRequest.mayFinalize_iff.mp ran.admitted
  · obtain ⟨later, t, i, earlier, o, split, opening, same, expedited⟩ := live_opened first run valid.request
    obtain ⟨q₀, queue₀, requestedAt, scheduled⟩ := i.opening_schedule opening
    have written : r = { o with eligibleAt := r.eligibleAt } := same
    have asked : r.requestedAt = t.clock := by rw [written, requestedAt]
    refine ⟨later, t, i, earlier, o, q₀, split, opening, same, same.queue ▸ queue₀, asked, fun early => ?_⟩
    rcases expedited with unchanged | expedited
    · omega
    · exact expedited.authority valid.key queueKey

/-- In every run from before either program existed, every vault is gated by its queue. -/
theorem vault_gated (first : c₀.Genesis) (run : Run Step c₀ history c) (vault : c.vaults.lookup k = some v) :
    c.Gated history k v := by
  have reach : Reachable c := ⟨c₀, history, first.initial, run⟩
  have sound := reach.vaults_sound k v vault
  have formed := sound.formed
  constructor
  · rcases formed.queue with none | key
    · exact Or.inl none
    · obtain ⟨q, queue⟩ := Option.isSome_iff_exists.mp
        (sound.live _ (VaultState.withdrawalQueue_of key Pubkey.noConfusion))
      have queueKey := (reach.queues_sound _ q queue).formed.key
      simp only [Pubkey.withdrawalQueue.injEq] at queueKey
      exact Or.inr ⟨key, q, queue, queueKey.symm⟩
  · intro queue i c' attached taken redeems
    obtain ⟨a, n, rfl, rfl⟩ := taken.gated reach vault attached redeems
    obtain ⟨q, r, _, _, _, v₀, _, _, _, _, _, ran, rfl⟩ := FinalizeWithdrawal.handler_eq_ok.mp taken.executed
    cases Option.some.inj (vault.symm.trans ran.redeem.valid.vault)
    refine ⟨a, n, r, q, rfl, rfl, ?_, ran.sequence, live_matured first run formed ran⟩
    rw [ran.valid.requestQueue, ran.valid.queueKey, formed.queue_key attached]
  · intro queue i c' attached taken
    rcases taken.vault_stays vault with ⟨v', vault'⟩ | ⟨a, _, _, _, rfl, rfl, _⟩
    · have kept : v'.withdrawalQueueAuthority = v.withdrawalQueueAuthority → v'.withdrawalQueue = some queue := by
        intro same
        obtain ⟨stored, set⟩ := VaultState.withdrawalQueue_eq attached
        exact VaultState.withdrawalQueue_of (same.trans stored) set
      rcases taken.terms vault vault' with same | change | ⟨rfl, _⟩ | ⟨queue', label, attached', _⟩
      · exact Or.inl ⟨v', vault', kept same.2.2.2.2.2.2.2⟩
      · exact Or.inl ⟨v', vault', kept change.queue⟩
      · refine Or.inl ⟨_, vault', kept ?_⟩
        obtain ⟨stored, _⟩ := VaultState.withdrawalQueue_eq attached
        rw [stored, formed.queue_key attached]
        rfl
      · exact Or.inr (Or.inl (taken.released formed vault attached' label))
    · exact Or.inr (Or.inr ⟨a, rfl, rfl⟩)

end Gate

open Sample in
theorem matured_gated :
    matured.Gated ((Chain.genesis (some admin)).events (opening ++ queueing ++ maturing)) vault vaultMatured :=
  vault_gated ⟨some admin, rfl⟩ (Chain.runAll_run _ (opening ++ queueing ++ maturing)) matured_vault

end Upshift
