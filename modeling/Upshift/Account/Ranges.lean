import Upshift.Queue.Deadlines
import Upshift.Queue.Equivalence
import Upshift.Queue.Schedule
import Upshift.Vault.Quotes
import Upshift.Vault.Recall

namespace Upshift
open Guard KeyedStore History

abbrev u8Max : Nat := 2 ^ 8 - 1

/-- The numbers of a vault account fit the fields that store them. -/
structure VaultState.InRange (v : VaultState) : Prop where
  withdrawalFee : v.withdrawalFee ≤ u32Max
  localAum : v.localAum ≤ u64Max
  deployedAum : v.deployedAum ≤ u64Max
  aumIncreaseLimit : v.aumIncreaseLimit ≤ u32Max
  aumDecreaseLimit : v.aumDecreaseLimit ≤ u32Max
  vaultVersion : v.vaultVersion ≤ u8Max
  shareOffset : v.shareOffset ≤ u64Max
  subaccountCount : v.subaccountCount ≤ u64Max
  deployedPrincipal : v.deployedPrincipal ≤ u64Max

structure WithdrawalQueue.InRange (q : WithdrawalQueue) : Prop where
  cooldownSeconds : q.cooldownSeconds ≤ u64Max
  fulfillmentWindowSeconds : q.fulfillmentWindowSeconds ≤ u64Max
  sequence : q.sequence ≤ u64Max
  pendingRequests : q.pendingRequests ≤ u64Max
  pendingShares : q.pendingShares ≤ u64Max

structure WithdrawalRequest.InRange (r : WithdrawalRequest) : Prop where
  shares : r.shares ≤ u64Max
  requestId : r.requestId ≤ u64Max
  sequence : r.sequence ≤ u64Max
  minAssetsOut : r.minAssetsOut ≤ u64Max
  requestedAt : FitsI64 r.requestedAt
  scheduledEligibleAt : FitsI64 r.scheduledEligibleAt
  eligibleAt : FitsI64 r.eligibleAt
  expiresAt : FitsI64 r.expiresAt

/-- The settings of a queue are within the limits of its setters. -/
def WithdrawalQueue.SettingsBounded (q : WithdrawalQueue) : Prop :=
  q.cooldownSeconds ≤ maxCooldownSeconds ∧ q.fulfillmentWindowSeconds ≤ maxFulfillmentWindowSeconds

/-- Every number of every account fits the field that stores it. -/
structure Chain.InRange (c : Chain) : Prop where
  vaults : ∀ k v, c.vaults.lookup k = some v → v.InRange
  subaccounts : ∀ k s, c.subaccounts.lookup k = some s → s.principal ≤ u64Max
  nominations : ∀ k n, c.nominations.lookup k = some n → FitsI64 n.validUntil
  queues : ∀ k q, c.queues.lookup k = some q → q.InRange
  requests : ∀ k r, c.requests.lookup k = some r → r.InRange
  clock : FitsI64 c.clock

section Step
variable {c c' : Chain} {i : Instruction} {k key pda : Pubkey} {v v' : VaultState} {q q' : WithdrawalQueue}
  {r r' : WithdrawalRequest} {n : NominatedAdmin}

theorem Step.version_eq (taken : Step c i c') (vault : c.vaults.lookup k = some v)
    (vault' : c'.vaults.lookup k = some v') : v'.vaultVersion = v.vaultVersion := by
  rcases taken.terms vault vault' with same | change | ⟨rfl, _⟩ | ⟨_, _, _, rfl⟩
  · exact same.2.2.1
  · exact change.vaultVersion
  · rfl
  · rfl

/-- The version is a byte from the start, and the count of entries is added up with overflow checks. -/
theorem Step.counts_fit (taken : Step c i c')
    (fits : ∀ k v, c.vaults.lookup k = some v → v.vaultVersion ≤ u8Max ∧ v.subaccountCount ≤ u64Max) :
    ∀ k v, c'.vaults.lookup k = some v → v.vaultVersion ≤ u8Max ∧ v.subaccountCount ≤ u64Max := by
  intro k v' vault'
  cases vault : c.vaults.lookup k with
  | none =>
    obtain ⟨a, _, _, _, version, _, _, _, _, _, rfl, _, rfl⟩ := taken.vault_new vault vault'
    cases Option.some.inj ((Finmap.lookup_insert _).symm.trans vault')
    exact ⟨Nat.le_of_lt_succ version.toNat_lt, Nat.zero_le _⟩
  | some v =>
    obtain ⟨version, count⟩ := fits k v vault
    refine ⟨taken.version_eq vault vault' ▸ version, ?_⟩
    have rewritten : ∀ {k₀ v₀ w}, c.vaults.lookup k₀ = some v₀ → (c.vaults.insert k₀ w).lookup k = some v' →
        w.subaccountCount ≤ u64Max → v'.subaccountCount ≤ u64Max := by
      intro k₀ v₀ w found₀ found within
      rcases lookup_rewritten vault found with ⟨_, rfl⟩ | ⟨_, rfl⟩
      · exact within
      · exact count
    cases taken.registry_move with
    | kept _ vaults => exact (vaults vault vault').1.trans_le count
    | registered _ ran => exact rewritten ran.vault vault' ran.fits
    | deregistered _ ran => exact rewritten ran.vault vault' ((Nat.sub_le _ _).trans (fits _ _ ran.vault).2)
    | settled _ ran => exact rewritten ran.vault vault' (fits _ _ ran.vault).2
    | returned _ ran => exact rewritten ran.valid.vault vault' (fits _ _ ran.valid.vault).2
    | withdrew _ ran => exact rewritten ran.valid.vault vault' (fits _ _ ran.valid.vault).2

/-- The settings of a queue after a step are as before, those of a new queue, or just set. -/
theorem Step.settings_source (taken : Step c i c') (queue' : c'.queues.lookup k = some q') :
    (∃ q, c.queues.lookup k = some q ∧ q'.cooldownSeconds = q.cooldownSeconds ∧
        q'.fulfillmentWindowSeconds = q.fulfillmentWindowSeconds) ∨
      (q'.cooldownSeconds ≤ maxCooldownSeconds ∧ q'.fulfillmentWindowSeconds = 0) ∨
      ∃ q, c.queues.lookup k = some q ∧
        (q'.cooldownSeconds ≤ maxCooldownSeconds ∧ q'.fulfillmentWindowSeconds = q.fulfillmentWindowSeconds ∨
          q'.cooldownSeconds = q.cooldownSeconds ∧
            (q'.fulfillmentWindowSeconds ≠ 0 → q'.fulfillmentWindowSeconds ≤ maxFulfillmentWindowSeconds)) := by
  have ran := taken.executed
  have rewritten : ∀ {k₀ q₀ w}, c.queues.lookup k₀ = some q₀ → (c.queues.insert k₀ w).lookup k = some q' →
      w.cooldownSeconds = q₀.cooldownSeconds → w.fulfillmentWindowSeconds = q₀.fulfillmentWindowSeconds →
      ∃ q, c.queues.lookup k = some q ∧ q'.cooldownSeconds = q.cooldownSeconds ∧
        q'.fulfillmentWindowSeconds = q.fulfillmentWindowSeconds := by
    intro k₀ q₀ w found₀ found cooldown window
    rcases lookup_insert_cases found with ⟨rfl, rfl⟩ | ⟨_, before⟩
    · exact ⟨q₀, found₀, cooldown, window⟩
    · exact ⟨q', before, rfl, rfl⟩
  cases taken.move with
  | quiet _ _ _ _ queues => exact Or.inl ⟨q', queues ▸ queue', rfl, rfl⟩
  | configured _ _ _ _ _ _ queues => exact Or.inl ⟨q', queues ▸ queue', rfl, rfl⟩
  | detached _ _ _ _ _ _ queues => exact Or.inl ⟨q', queues ▸ queue', rfl, rfl⟩
  | scheduled label =>
    unfold Instruction.schedules at label
    split at label
    · rename_i a seconds
      have ran : SetCooldown.handler c a seconds.toNat = .ok c' := ran
      obtain ⟨q, _, w, queue, _, _, _, _, changed, rfl⟩ := QueueAdmin.update_eq_ok ran
      obtain ⟨within, rfl⟩ := WithdrawalQueue.setCooldown_eq_ok.mp changed
      rcases lookup_insert_cases queue' with ⟨rfl, rfl⟩ | ⟨_, before⟩
      · exact Or.inr (Or.inr ⟨q, queue, Or.inl ⟨within, rfl⟩⟩)
      · exact Or.inl ⟨q', before, rfl, rfl⟩
    · rename_i a seconds
      have ran : SetFulfillmentWindow.handler c a seconds.toNat = .ok c' := ran
      obtain ⟨q, _, w, queue, _, _, _, _, changed, rfl⟩ := QueueAdmin.update_eq_ok ran
      obtain ⟨_, within, rfl⟩ := WithdrawalQueue.setFulfillmentWindow_eq_ok.mp changed
      rcases lookup_insert_cases queue' with ⟨rfl, rfl⟩ | ⟨_, before⟩
      · exact Or.inr (Or.inr ⟨q, queue, Or.inr ⟨rfl, within⟩⟩)
      · exact Or.inl ⟨q', before, rfl, rfl⟩
    · cases label
  | opened _ spec =>
    rcases lookup_insert_cases queue' with ⟨_, rfl⟩ | ⟨_, before⟩
    · exact Or.inr (Or.inl ⟨spec.cooldown, rfl⟩)
    · exact Or.inl ⟨q', before, rfl, rfl⟩
  | requested _ spec => exact Or.inl (rewritten spec.queue queue' rfl rfl)
  | cancelled _ spec => exact Or.inl (rewritten spec.queue queue' rfl rfl)
  | finalized _ spec => exact Or.inl (rewritten spec.valid.queue queue' rfl rfl)
  | attached | reported | registered | deregistered | settled | expedited | initialized | closed =>
    exact Or.inl ⟨q', queue', rfl, rfl⟩
  | deposited | redeemed | withdrew | returned | swept | banked => exact Or.inl ⟨q', queue', rfl, rfl⟩

theorem Step.settings_bounded (taken : Step c i c')
    (bounded : ∀ k q, c.queues.lookup k = some q → q.SettingsBounded) :
    ∀ k q, c'.queues.lookup k = some q → q.SettingsBounded := by
  intro k q' queue'
  unfold WithdrawalQueue.SettingsBounded
  rcases taken.settings_source queue' with ⟨q, queue, cooldown, window⟩ | ⟨cooldown, window⟩ |
    ⟨q, queue, ⟨cooldown, window⟩ | ⟨cooldown, window⟩⟩
  · rw [cooldown, window]
    exact bounded k q queue
  · rw [window]
    exact ⟨cooldown, Nat.zero_le _⟩
  · rw [window]
    exact ⟨cooldown, (bounded k q queue).2⟩
  · rw [cooldown]
    refine ⟨(bounded k q queue).1, ?_⟩
    by_cases off : q'.fulfillmentWindowSeconds = 0
    · rw [off]
      exact Nat.zero_le _
    · exact window off

/-- A request is accepted only if its schedule fits. -/
theorem RequestWithdrawal.schedule_fits {a : RequestWithdrawal} {requestId shares minAssetsOut : Nat}
    {finalizer : Pubkey} (ran : RequestWithdrawal.handler c a requestId shares minAssetsOut finalizer = .ok c')
    (queue : c.queues.lookup a.queue = some q) :
    ScheduleFits c.clock q.cooldownSeconds q.fulfillmentWindowSeconds := by
  simp only [RequestWithdrawal.handler, bind_eq_ok, Prod.exists, Chain.queueOfVault_eq_ok, require_eq_ok,
    WithdrawalQueue.openRequest_eq_ok, exists_const] at ran
  obtain ⟨q₀, _, ⟨found, _⟩, _, _, _, _, _, _, _, _, _, _, _, _, _, _, r, opened, _⟩ := ran
  cases Option.some.inj (queue.symm.trans found)
  exact WithdrawalRequest.schedule_defined.mp ⟨r, opened⟩

theorem ScheduleFits.instants {now : Int} {cooldownSeconds windowSeconds : Nat}
    (fits : ScheduleFits now cooldownSeconds windowSeconds) :
    FitsI64 (now + cooldownSeconds) ∧
      FitsI64 (if windowSeconds = 0 then 0 else now + cooldownSeconds + windowSeconds) := by
  obtain ⟨_, due, off | ⟨_, deadline⟩⟩ := fits
  · rw [if_pos off]
    exact ⟨due, by decide⟩
  · refine ⟨due, ?_⟩
    split
    · decide
    · exact deadline

theorem Step.clock_fits (taken : Step c i c') (fits : FitsI64 c.clock) : FitsI64 c'.clock := by
  have ran := taken.executed
  cases taken.admin_move with
  | nominated => exact fits
  | accepted => exact fits
  | kept _ _ _ clock =>
    rcases clock with same | label
    · exact same ▸ fits
    · subst label
      simp only [Chain.execute, bind_eq_ok, require_eq_ok, exists_const] at ran
      exact ran.1

/-- A nomination is as it was, or was just made at its vault's address, for a day that fits. -/
theorem Step.nomination_source (taken : Step c i c') (found : c'.nominations.lookup pda = some n) :
    c.nominations.lookup pda = some n ∨ (∃ depositMint vaultVersion, pda = .nominatedAdmin depositMint vaultVersion) ∧
      n.validUntil = c.clock + oneDayInSeconds ∧ n.validUntil ≤ i64Max := by
  have ran := taken.executed
  cases taken.admin_move with
  | kept _ nominations => exact Or.inl (nominations ▸ found)
  | accepted => exact Or.inl (lookup_erase_cases found).2
  | nominated label _ _ _ pdaKey =>
    subst label
    simp only [Chain.execute, Chain.executeVault, NominateAdmin.handler, NominatedAdmin.init, bind_eq_ok, require_eq_ok,
      pure_eq_ok, exists_const] at ran
    obtain ⟨_, _, _, _, ⟨fits, rfl⟩, _⟩ := ran
    rcases lookup_insert_cases found with ⟨rfl, rfl⟩ | ⟨_, before⟩
    · exact Or.inr ⟨⟨_, _, pdaKey⟩, rfl, fits⟩
    · exact Or.inl before

theorem Step.nominations_fit (taken : Step c i c') (clock : FitsI64 c.clock)
    (fits : ∀ k n, c.nominations.lookup k = some n → FitsI64 n.validUntil) :
    ∀ k n, c'.nominations.lookup k = some n → FitsI64 n.validUntil := by
  intro k n found
  rcases taken.nomination_source found with before | ⟨_, made, within⟩
  · exact fits k n before
  · refine ⟨?_, within⟩
    have past := clock.1
    simp only [made, oneDayInSeconds]
    omega

theorem Step.requests_in_range (taken : Step c i c') (clock : FitsI64 c.clock)
    (fits : ∀ k r, c.requests.lookup k = some r → r.InRange) :
    ∀ k r, c'.requests.lookup k = some r → r.InRange := by
  intro k r' live
  rcases taken.request_source live with before | ⟨a, _, _, _, r, _, rfl, ran, rfl⟩ |
    ⟨a, requestId, shares, minAssetsOut, finalizer, q, v, escrowed, rfl, _, ran, rfl, _⟩
  · exact fits k r' before
  · exact { fits _ r ran.request with eligibleAt := clock }
  · obtain ⟨due, deadline⟩ := (RequestWithdrawal.schedule_fits taken.executed ran.queue).instants
    exact ⟨Nat.le_of_lt_succ shares.toNat_lt, Nat.le_of_lt_succ requestId.toNat_lt, ran.sequenceFits,
      Nat.le_of_lt_succ minAssetsOut.toNat_lt, clock, due, due, deadline⟩

end Step

section Reachable
variable {c : Chain} {k : Pubkey} {q : WithdrawalQueue}

theorem Reachable.clock_fits (reach : Reachable c) : FitsI64 c.clock := by
  refine reach.preserves (fun _ => ?_) (fun _ _ _ fits => fits) fun _ _ _ _ fits taken => taken.clock_fits fits
  exact (by decide : FitsI64 0)

theorem Reachable.settings_bounded (reach : Reachable c) (queue : c.queues.lookup k = some q) : q.SettingsBounded := by
  refine (reach.preserves ?_ (fun _ _ _ bounded => bounded) fun _ _ _ _ bounded taken =>
    taken.settings_bounded bounded : ∀ k q, c.queues.lookup k = some q → q.SettingsBounded) k q queue
  intro authority k q queue
  cases queue

/-- Every pending request holds a share that is in the escrow. -/
theorem Reachable.pending_fit (reach : Reachable c) (queue : c.queues.lookup k = some q) :
    q.pendingRequests ≤ q.pendingShares ∧ q.pendingShares ≤ c.bank.balance q.escrowShares := by
  have sound := reach.queues_sound k q queue
  refine ⟨?_, sound.covered⟩
  rw [sound.counted.1, sound.counted.2]
  refine total_le fun key r live => ?_
  have positive := (reach.requests_sound key r live).positive
  unfold WithdrawalRequest.counted WithdrawalRequest.pending
  split
  · exact positive
  · exact le_rfl

/-- In every reachable chain each stored number is one that its field can hold. -/
theorem Reachable.in_range (reach : Reachable c) : c.InRange := by
  have clock := reach.clock_fits
  have counts : ∀ k v, c.vaults.lookup k = some v → v.vaultVersion ≤ u8Max ∧ v.subaccountCount ≤ u64Max := by
    refine reach.preserves ?_ ?_ fun _ _ _ _ fits taken => taken.counts_fit fits
    · intro authority k v vault
      cases vault
    · intro t vaults before fits k v vault
      obtain ⟨v₀, vault₀, stored⟩ := before.found vault
      rw [stored.rest]
      exact fits k v₀ vault₀
  have nominations : ∀ k n, c.nominations.lookup k = some n → FitsI64 n.validUntil := by
    refine reach.preserves ?_ (fun _ _ _ fits => fits) fun _ _ _ before fits taken =>
      taken.nominations_fit (Reachable.clock_fits before) fits
    intro authority k n found
    cases found
  have requests : ∀ k r, c.requests.lookup k = some r → r.InRange := by
    refine reach.preserves ?_ (fun _ _ _ fits => fits) fun _ _ _ before fits taken =>
      taken.requests_in_range (Reachable.clock_fits before) fits
    intro authority k r live
    cases live
  refine ⟨fun k v vault => ?_, fun key s entry => ?_, nominations, fun k q queue => ?_, requests, clock⟩
  · obtain ⟨formed, _, solvent, deployed, _⟩ := reach.vaults_sound k v vault
    obtain ⟨version, count⟩ := counts k v vault
    have small : v.shareOffset ≤ 1000000 := by
      rcases formed.offset with unset | permitted
      · exact unset.trans_le (Nat.zero_le _)
      · exact (VaultState.isValidShareOffset_bounds permitted).2
    have limit : bpsDenominator ≤ u32Max := by decide
    exact ⟨formed.fee.le.trans (by decide), le_trans solvent (reach.bank_sound.balance_le _), deployed,
      formed.increase.trans limit, formed.decrease.trans limit, version, small.trans (by decide), count,
      reach.principal_fits vault⟩
  · obtain ⟨address, v, vault⟩ := reach.registry_sound.entries key s entry
    obtain ⟨live, within⟩ := Chain.deployment_live entry rfl v
    obtain ⟨count, principal⟩ := reach.registry_sound.exact s.vaultState v vault
    have fits := reach.principal_fits vault
    simp only [Chain.deployment] at live within count principal
    omega
  · obtain ⟨cooldown, window⟩ := reach.settings_bounded queue
    obtain ⟨fewer, covered⟩ := reach.pending_fit queue
    have held := reach.bank_sound.balance_le q.escrowShares
    exact ⟨cooldown.trans (by decide), window.trans (by decide), (reach.queues_sound k q queue).issued, by omega,
      by omega⟩

end Reachable

end Upshift
