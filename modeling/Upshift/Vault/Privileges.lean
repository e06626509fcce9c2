import Upshift.Isolation.Holders
import Upshift.Vault.Governance
import Upshift.Vault.Principal
import Upshift.Vault.Reports

namespace Upshift
open Guard KeyedStore History

/-- The instructions that do nothing but record a decision. -/
def Instruction.governs : Instruction → Bool
  | .vault (.initializeConfig ..) | .vault (.setConfigAuthority ..) | .vault (.overrideConfigAuthority ..) => true
  | .vault (.setWithdrawalFee ..) | .vault (.setOperator ..) | .vault (.setFeeRecipient ..) => true
  | .vault (.setAumLimits ..) | .vault (.pause _) | .vault (.unpause _) => true
  | .vault (.nominateAdmin ..) | .vault (.acceptAdminNomination _) => true
  | .vault (.attachWithdrawalQueue ..) | .vault (.detachWithdrawalQueue ..) => true
  | .queue (.setCooldown ..) | .queue (.setFulfillmentWindow ..) | .queue (.releaseVault _) => true
  | .clock _ | .setUpgradeAuthority _ => true
  | _ => false

section Exact
variable {c : Chain} {i : Instruction} {k depositMint : Pubkey} {v : VaultState}

/-- The deposit mint that its address names is the vault's own, and exists. -/
theorem Reachable.vault_read (reach : Reachable c) (vault : c.vaults.lookup k = some v)
    (key : k = .vaultState depositMint v.vaultVersion) : c.vaultAt k depositMint = .ok v := by
  have sound := reach.vaults_sound k v vault
  obtain ⟨_, d, _, atMint, _⟩ := sound.backed.issued
  have same := key.symm.trans sound.formed.key
  simp only [Pubkey.vaultState.injEq, and_true] at same
  exact Chain.vaultAt_eq_ok.mpr ⟨vault, ⟨d, same ▸ atMint⟩, key⟩

/-- A setter that its admin sends runs as far as the change goes. -/
theorem Reachable.update_runs (reach : Reachable c) {a : VaultAdmin} {change : VaultState → Result VaultState}
    (admin : c.governance.Admin a)
    (allows : ∀ v, c.vaults.lookup a.vaultState = some v → ∃ v', change v = .ok v') : ∃ c', a.update c change = .ok c' := by
  obtain ⟨v, vault, key, admin⟩ := Chain.governance_of_has admin
  obtain ⟨v', changed⟩ := allows v vault
  refine ⟨{ c with vaults := c.vaults.insert a.vaultState v' }, ?_⟩
  simp only [VaultAdmin.update, VaultAdmin.accounts, bind_eq_ok, require_eq_ok, pure_eq_ok, exists_const]
  exact ⟨v, ⟨v, reach.vault_read vault key, admin, rfl⟩, v', changed, rfl⟩

theorem Reachable.queue_read (reach : Reachable c) {queue vaultState : Pubkey} {q : WithdrawalQueue}
    (found : c.queues.lookup queue = some q) (key : queue = .withdrawalQueue vaultState)
    (vault : c.vaults.lookup vaultState = some v) : c.queueOfVault queue vaultState = .ok (q, v) := by
  have same := key.symm.trans (reach.queues_sound queue q found).formed.key
  simp only [Pubkey.withdrawalQueue.injEq] at same
  exact Chain.queueOfVault_eq_ok.mpr ⟨found, key, same.symm, vault⟩

theorem Reachable.retiming_runs (reach : Reachable c) {a : QueueAdmin}
    {change : WithdrawalQueue → Result WithdrawalQueue} (scheduler : c.governance.Scheduler a)
    (allows : ∀ q, ∃ q', change q = .ok q') : ∃ c', a.update c change = .ok c' := by
  obtain ⟨key, there, has⟩ := scheduler
  obtain ⟨v, vault, admin⟩ := Chain.governance_of_has has
  obtain ⟨q, found⟩ := Option.isSome_iff_exists.mp (Option.isSome_map.symm.trans there)
  obtain ⟨q', changed⟩ := allows q
  have read := reach.queue_read found key vault
  obtain ⟨_, _, same, _⟩ := Chain.queueOfVault_eq_ok.mp read
  simp only [QueueAdmin.update, bind_eq_ok, Prod.exists, requireVaultAdmin_eq_ok, pure_eq_ok, exists_const]
  exact ⟨_, q, v, read, ⟨same.symm, admin⟩, q', changed, rfl⟩

theorem Reachable.vault_decision_runs (reach : Reachable c) {j : VaultInstruction}
    (governs : (Instruction.vault j).governs = true) (permitted : c.governance.Permits (.vault j)) :
    ∃ c', c.executeVault j = .ok c' := by
  cases j with
  | initializeConfig upgradeAuthority authority =>
    obtain ⟨upgrade, absent, set⟩ := permitted
    refine ⟨{ c with config := some ⟨authority⟩ }, ?_⟩
    simp only [Chain.executeVault, InitializeConfig.handler, bind_eq_ok, require_eq_ok, pure_eq_ok, exists_const]
    exact ⟨upgrade, Option.map_eq_none_iff.mp absent, set, trivial⟩
  | setConfigAuthority authority newAuthority =>
    obtain ⟨holder, set⟩ := permitted
    obtain ⟨config, found, same⟩ := Option.map_eq_some_iff.mp holder
    refine ⟨{ c with config := some { config with authority := newAuthority } }, ?_⟩
    simp only [Chain.executeVault, SetConfigAuthority.handler, bind_eq_ok, okOr_eq_ok, require_eq_ok, pure_eq_ok,
      exists_const]
    exact ⟨config, found, same, set, trivial⟩
  | overrideConfigAuthority upgradeAuthority newAuthority =>
    obtain ⟨upgrade, there, set⟩ := permitted
    obtain ⟨config, found⟩ := Option.isSome_iff_exists.mp (Option.isSome_map.symm.trans there)
    refine ⟨{ c with config := some { config with authority := newAuthority } }, ?_⟩
    simp only [Chain.executeVault, OverrideConfigAuthority.handler, bind_eq_ok, okOr_eq_ok, require_eq_ok, pure_eq_ok,
      exists_const]
    exact ⟨config, found, upgrade, set, trivial⟩
  | setFeeRecipient | pause | unpause => exact reach.update_runs permitted fun v _ => ⟨_, rfl⟩
  | setWithdrawalFee a newFee =>
    refine reach.update_runs permitted.1 fun v _ => ⟨{ v with withdrawalFee := newFee.toNat }, ?_⟩
    simp only [bind_eq_ok, require_eq_ok, pure_eq_ok, exists_const]
    exact ⟨permitted.2, trivial⟩
  | setOperator a newOperator =>
    refine reach.update_runs permitted.1 fun v _ => ⟨{ v with operator := newOperator }, ?_⟩
    simp only [bind_eq_ok, require_eq_ok, pure_eq_ok, exists_const]
    exact ⟨permitted.2, trivial⟩
  | setAumLimits a increaseLimit decreaseLimit =>
    refine reach.update_runs permitted.1 fun v _ =>
      ⟨{ v with aumIncreaseLimit := increaseLimit.toNat, aumDecreaseLimit := decreaseLimit.toNat }, ?_⟩
    simp only [bind_eq_ok, require_eq_ok, pure_eq_ok, exists_const]
    exact ⟨permitted.2.1, permitted.2.2, trivial⟩
  | attachWithdrawalQueue a queue =>
    obtain ⟨admin, free, key, there⟩ := permitted
    refine reach.update_runs admin fun v vault => ⟨{ v with withdrawalQueueAuthority := queue }, ?_⟩
    obtain ⟨v₀, vault₀, free⟩ := Chain.governance_of_has free
    cases Option.some.inj (vault.symm.trans vault₀)
    simp only [bind_eq_ok, require_eq_ok, pure_eq_ok, exists_const]
    exact ⟨VaultState.withdrawalQueue_eq_none.mpr free, key, Option.isSome_map.symm.trans there, trivial⟩
  | detachWithdrawalQueue a queue =>
    obtain ⟨admin, attached, set⟩ := permitted
    refine reach.update_runs admin fun v vault => ⟨{ v with withdrawalQueueAuthority := .default }, ?_⟩
    obtain ⟨v₀, vault₀, attached⟩ := Chain.governance_of_has attached
    cases Option.some.inj (vault.symm.trans vault₀)
    simp only [bind_eq_ok, okOr_eq_ok, require_eq_ok, pure_eq_ok, exists_const]
    exact ⟨queue, VaultState.withdrawalQueue_of attached set, rfl, trivial⟩
  | nominateAdmin a nominatedAdminPda nominatedAdmin =>
    obtain ⟨admin, pda, fits⟩ := permitted
    obtain ⟨v, vault, key, admin⟩ := Chain.governance_of_has admin
    obtain ⟨v₀, vault₀, pdaKey⟩ := Chain.governance_of_has pda
    cases Option.some.inj (vault.symm.trans vault₀)
    simp only [Chain.executeVault, NominateAdmin.handler, NominatedAdmin.init, VaultAdmin.accounts, bind_eq_ok,
      require_eq_ok, pure_eq_ok, exists_const]
    exact ⟨_, v, ⟨v, reach.vault_read vault key, admin, rfl⟩, pdaKey, _, ⟨fits, rfl⟩, rfl⟩
  | acceptAdminNomination a =>
    obtain ⟨has, n, nomination, nominee, valid⟩ := permitted
    obtain ⟨v, vault, key, pdaKey⟩ := Chain.governance_of_has has
    obtain ⟨n, found, rfl⟩ := Option.map_eq_some_iff.mp nomination
    simp only [Chain.executeVault, AcceptAdminNomination.handler, NominatedAdmin.validAcceptNomination, bind_eq_ok,
      fetch_eq_ok, require_eq_ok, pure_eq_ok, exists_const]
    exact ⟨_, v, reach.vault_read vault key, n, found, pdaKey, ⟨decide_eq_true nominee, decide_eq_true valid⟩, rfl⟩
  | _ => cases governs

theorem Reachable.queue_decision_runs (reach : Reachable c) {j : QueueInstruction}
    (governs : (Instruction.queue j).governs = true) (permitted : c.governance.Permits (.queue j)) :
    ∃ c', c.executeQueue j = .ok c' := by
  cases j with
  | setCooldown a seconds =>
    refine @Reachable.retiming_runs c reach a (·.setCooldown seconds.toNat) permitted.1 fun q =>
      ⟨{ q with cooldownSeconds := seconds.toNat }, ?_⟩
    exact WithdrawalQueue.setCooldown_eq_ok.mpr ⟨permitted.2, rfl⟩
  | setFulfillmentWindow a seconds =>
    refine @Reachable.retiming_runs c reach a (·.setFulfillmentWindow seconds.toNat) permitted.1 fun q =>
      ⟨{ q with fulfillmentWindowSeconds := seconds.toNat }, ?_⟩
    refine WithdrawalQueue.setFulfillmentWindow_eq_ok.mpr ⟨?_, ?_, rfl⟩
    · exact fun limited => (permitted.2 limited).1
    · exact fun limited => (permitted.2 limited).2
  | releaseVault a =>
    obtain ⟨admin, queueKey, attached⟩ := permitted
    obtain ⟨v, vault, key, holder⟩ := Chain.governance_of_has admin
    obtain ⟨v₀, vault₀, attached⟩ := Chain.governance_of_has attached
    cases Option.some.inj (vault.symm.trans vault₀)
    have set : a.queue ≠ .default := queueKey ▸ Pubkey.noConfusion
    have current := VaultState.withdrawalQueue_of attached set
    obtain ⟨q, found⟩ := Option.isSome_iff_exists.mp ((reach.vaults_sound _ v vault).live _ current)
    have read := reach.queue_read found queueKey vault
    obtain ⟨_, _, same, _⟩ := Chain.queueOfVault_eq_ok.mp read
    obtain ⟨version, queueVault, _⟩ := (reach.queues_sound _ q found).formed.vault
    have mint := (same.symm.trans queueVault).symm.trans key
    simp only [Pubkey.vaultState.injEq] at mint
    obtain ⟨d, detached⟩ : ∃ d, DetachWithdrawalQueue.handler c ⟨a.vaultState, a.depositMint, a.admin⟩ a.queue = .ok d :=
      reach.vault_decision_runs (j := .detachWithdrawalQueue _ _) rfl
        ⟨admin, Chain.governance_has vault attached, set⟩
    simp only [Chain.executeQueue, ReleaseVault.handler, bind_eq_ok, Prod.exists, require_eq_ok,
      requireVaultAdmin_eq_ok, pure_eq_ok, exists_const]
    exact ⟨_, q, v, read, mint.1, ⟨same.symm, holder⟩, d, detached, rfl⟩
  | _ => cases governs

/-- A decision is accepted exactly from whoever may make it: neither a pause nor the state of the money, of the queue
or of the requests stands in its way. -/
theorem Reachable.decision_accepted_iff (reach : Reachable c) (governs : i.governs = true) :
    (∃ c', Step c i c') ↔ (∀ a ∈ i.signers, a.canSign = true) ∧ c.governance.Permits i := by
  constructor
  · rintro ⟨c', taken⟩
    exact ⟨taken.signed, taken.governed.1⟩
  · rintro ⟨signed, permitted⟩
    have runs : ∃ c', c.execute i = .ok c' := by
      cases i with
      | vault => exact reach.vault_decision_runs governs permitted
      | queue => exact reach.queue_decision_runs governs permitted
      | token => cases governs
      | clock now =>
        refine ⟨{ c with clock := now }, ?_⟩
        simp only [Chain.execute, bind_eq_ok, require_eq_ok, pure_eq_ok, exists_const]
        exact ⟨permitted, trivial⟩
      | setUpgradeAuthority => exact ⟨_, rfl⟩
    obtain ⟨c', ran⟩ := runs
    exact ⟨c', .of_executed signed ran⟩

end Exact

open Sample in
theorem opened_pause_accepted_iff : (∃ c', Step opened (.vault (.pause ⟨vault, mint, admin⟩)) c') ↔
    (∀ a ∈ [admin], a.canSign = true) ∧ opened.governance.Admin ⟨vault, mint, admin⟩ :=
  @Reachable.decision_accepted_iff opened (.vault (.pause ⟨vault, mint, admin⟩)) (Chain.runAll_reachable _ _) rfl

section Silence
variable {g g' : Governance} {i : Instruction} {k : Pubkey} {s : Settings}

theorem Governance.amend_other (change : Settings → Settings) {k₀ : Pubkey} (other : k₀ ≠ k) :
    (g.amend k₀ change).vaults k = g.vaults k :=
  Function.update_of_ne other.symm _ _

/-- What is decided about one vault: its settings, the schedule of its queue and who is to be its next admin. -/
def Governance.about (g : Governance) (k : Pubkey) (s : Settings) :
    Option Settings × Option Timing × Option NominatedAdmin :=
  (g.vaults k, g.queues (.withdrawalQueue k), g.nominations (.nominatedAdmin s.depositMint s.vaultVersion))

theorem Governance.about_vaults {vaults : Pubkey → Option Settings} (same : vaults k = g.vaults k) :
    { g with vaults := vaults }.about k s = g.about k s := by
  simp only [Governance.about, same]

theorem Governance.about_queues {k₀ queue : Pubkey} {timing : Option Timing} (named : queue = .withdrawalQueue k₀)
    (other : k₀ ≠ k) : { g with queues := Function.update g.queues queue timing }.about k s = g.about k s := by
  have different : Pubkey.withdrawalQueue k ≠ queue :=
    fun same => other (Pubkey.withdrawalQueue.inj (same.trans named)).symm
  simp only [Governance.about, Function.update_of_ne different]

theorem Governance.about_nominations {mint pda : Pubkey} {version : Nat} {n : Option NominatedAdmin}
    (key : k = .vaultState s.depositMint s.vaultVersion) (named : pda = .nominatedAdmin mint version)
    (other : .vaultState mint version ≠ k) :
    { g with nominations := Function.update g.nominations pda n }.about k s = g.about k s := by
  have different : Pubkey.nominatedAdmin s.depositMint s.vaultVersion ≠ pda := by
    intro same
    obtain ⟨rfl, rfl⟩ := Pubkey.nominatedAdmin.inj (same.trans named)
    exact other key.symm
  simp only [Governance.about, Function.update_of_ne different]

/-- Only the admin of a vault, or its nominee, decides anything about it. -/
theorem Governance.Step.about_kept (taken : g.Step i g') (vault : g.vaults k = some s)
    (key : k = .vaultState s.depositMint s.vaultVersion) (notAdmin : ∀ signer, i.asAdmin ≠ some (k, signer))
    (notNominee : ∀ a, i = .vault (.acceptAdminNomination a) → a.vaultState ≠ k) : g'.about k s = g.about k s := by
  obtain ⟨permitted, rfl⟩ := taken
  cases i with
  | vault j =>
    cases j with
    | setWithdrawalFee a | setOperator a | setFeeRecipient a | setAumLimits a | pause a | unpause a
    | attachWithdrawalQueue a | detachWithdrawalQueue a =>
      have other : a.vaultState ≠ k := fun here => notAdmin a.admin (here ▸ rfl)
      exact Governance.about_vaults (Governance.amend_other _ other)
    | closeVault a =>
      have other : a.vaultState ≠ k := fun here => notAdmin a.admin (here ▸ rfl)
      exact Governance.about_vaults (Function.update_of_ne other.symm _ _)
    | initializeVault a =>
      have other : a.vaultState ≠ k := fun here => by cases (here ▸ permitted.2.1).symm.trans vault
      exact Governance.about_vaults (Function.update_of_ne other.symm _ _)
    | nominateAdmin a nominatedAdminPda =>
      have other : a.vaultState ≠ k := fun here => notAdmin a.admin (here ▸ rfl)
      obtain ⟨⟨s₀, vault₀, key₀, _⟩, ⟨s₁, vault₁, pda⟩, _⟩ := permitted
      cases Option.some.inj (vault₀.symm.trans vault₁)
      exact Governance.about_nominations key pda (key₀ ▸ other)
    | acceptAdminNomination a =>
      have other := notNominee a rfl
      obtain ⟨⟨s₀, _, key₀, pda⟩, _⟩ := permitted
      exact (Governance.about_vaults (Governance.amend_other _ other)).trans
        (Governance.about_nominations key pda (key₀ ▸ other))
    | _ => rfl
  | queue j =>
    cases j with
    | initializeQueue a =>
      have other : a.vaultState ≠ k := fun here => notAdmin a.admin (here ▸ rfl)
      exact Governance.about_queues permitted.2.1 other
    | setCooldown a | setFulfillmentWindow a =>
      have other : a.vaultState ≠ k := fun here => notAdmin a.admin (here ▸ rfl)
      exact Governance.about_queues permitted.1.1 other
    | releaseVault a =>
      have other : a.vaultState ≠ k := fun here => notAdmin a.admin (here ▸ rfl)
      exact Governance.about_vaults (Governance.amend_other _ other)
    | _ => rfl
  | token | clock | setUpgradeAuthority => rfl

end Silence

/-- The vault of an instruction that only its operator may send, and the key presented as the operator. -/
def Instruction.asOperator : Instruction → Option (Pubkey × Pubkey)
  | .vault (.operatorWithdraw a _) | .vault (.operatorDeposit a _) => some (a.vaultState, a.operator)
  | .vault (.operatorUpdateAum a _) => some (a.vaultState, a.operator)
  | _ => none

/-- The figures about what is deployed, and where. -/
def VaultState.deployed (v : VaultState) : Nat × Nat × Nat := (v.deployedAum, v.subaccountCount, v.deployedPrincipal)

section Absence
variable {c c' : Chain} {i : Instruction} {k key : Pubkey} {v v' : VaultState} {history : List (Chain × Instruction)}

theorem Instruction.asAdmin_signs (presented : i.asAdmin = some (k, key)) : key ∈ i.signers := by
  unfold Instruction.asAdmin at presented
  split at presented
  all_goals
    cases presented
    try exact List.mem_cons_self

theorem VaultState.eq_of_parts (settings : v'.settings = v.settings) (deployed : v'.deployed = v.deployed) :
    v' = { v with localAum := v'.localAum } := by
  cases v
  cases v'
  simp only [VaultState.settings, VaultState.deployed, Settings.mk.injEq, Prod.mk.injEq] at settings deployed
  simp only [settings, deployed]

theorem Instruction.asOperator_signs (presented : i.asOperator = some (k, key)) : key ∈ i.signers := by
  unfold Instruction.asOperator at presented
  split at presented
  all_goals
    cases presented
    try exact List.mem_cons_self

theorem Instruction.asOperator_of_aum (acts : i.deploys k = true ∨ i.restores k = true ∨ i.reports k = true) :
    ∃ signer, i.asOperator = some (k, signer) := by
  rcases acts with label | label | label
  · unfold Instruction.deploys at label
    split at label
    · obtain rfl := of_decide_eq_true label
      exact ⟨_, rfl⟩
    · cases label
  · unfold Instruction.restores at label
    split at label
    · obtain rfl := of_decide_eq_true label
      exact ⟨_, rfl⟩
    · cases label
  · unfold Instruction.reports at label
    split at label
    · obtain rfl := of_decide_eq_true label
      exact ⟨_, rfl⟩
    · cases label

/-- Whoever passes a check for the operator is the operator. -/
theorem Step.as_operator (taken : Step c i c') (presented : i.asOperator = some (k, key)) :
    ∃ v, c.vaults.lookup k = some v ∧ v.operator = key := by
  have permitted := taken.governed.1
  unfold Instruction.asOperator at presented
  split at presented <;> cases presented
  all_goals exact Chain.governance_of_has permitted

/-- What is deployed changes only under the signature of the operator or of the admin. -/
theorem Step.deployed_kept (reach : Reachable c) (taken : Step c i c') (vault : c.vaults.lookup k = some v)
    (vault' : c'.vaults.lookup k = some v') (admin : v.admin ∉ i.signers) (operator : v.operator ∉ i.signers) :
    v'.deployed = v.deployed := by
  have notAdmin : ∀ {signer}, i.asAdmin ≠ some (k, signer) := by
    intro signer presented
    obtain ⟨w, found, rfl⟩ := taken.as_admin presented
    cases Option.some.inj (vault.symm.trans found)
    exact admin (Instruction.asAdmin_signs presented)
  have notOperator : ∀ {signer}, i.asOperator ≠ some (k, signer) := by
    intro signer presented
    obtain ⟨w, found, rfl⟩ := taken.as_operator presented
    cases Option.some.inj (vault.symm.trans found)
    exact operator (Instruction.asOperator_signs presented)
  have aum : v'.deployedAum = v.deployedAum := by
    by_cases acts : i.deploys k = true ∨ i.restores k = true ∨ i.reports k = true
    · obtain ⟨signer, presented⟩ := Instruction.asOperator_of_aum acts
      exact absurd presented notOperator
    · cases taken.aum_move reach vault vault' with
      | kept same => exact same
      | deployed label => exact absurd (Or.inl label) acts
      | restored label => exact absurd (Or.inr (Or.inl label)) acts
      | reported label => exact absurd (Or.inr (Or.inr label)) acts
  -- A rewrite of another vault leaves this one alone.
  have elsewhere : ∀ {k₀ w}, k₀ ≠ k → (c.vaults.insert k₀ w).lookup k = some v' →
      v'.subaccountCount = v.subaccountCount ∧ v'.deployedPrincipal = v.deployedPrincipal := by
    intro k₀ w other found
    cases Option.some.inj (vault.symm.trans ((Finmap.lookup_insert_of_ne _ other.symm).symm.trans found))
    exact ⟨rfl, rfl⟩
  have registry : v'.subaccountCount = v.subaccountCount ∧ v'.deployedPrincipal = v.deployedPrincipal := by
    cases taken.registry_move with
    | kept _ vaults => exact vaults vault vault'
    | registered label | deregistered label | settled label =>
      refine elsewhere (fun here => ?_) vault'
      subst label here
      exact notAdmin rfl
    | withdrew label | returned label =>
      refine elsewhere (fun here => ?_) vault'
      subst label here
      exact notOperator rfl
  simp only [VaultState.deployed, aum, registry]

/-- What is decided about a vault stays as it is while its admin and the next one are silent. -/
theorem Run.about_kept (run : Run Step c history c') (reach : Reachable c) (vault : c.vaults.lookup k = some v)
    (admin : Silent v.admin history) (nominee : ∀ n, c.nominations.lookup
      (.nominatedAdmin v.depositMint v.vaultVersion) = some n → Silent n.nominatedAdmin history) :
    c'.governance.about k v.settings = c.governance.about k v.settings := by
  have key := (reach.vaults_sound k v vault).formed.key
  have seen : c.governance.vaults k = some v.settings := congrArg (Option.map VaultState.settings) vault
  induction run with
  | start => rfl
  | @next history t i u previous taken ih =>
    have kept := ih (List.forall_mem_cons.mp admin).2 fun n found => (List.forall_mem_cons.mp (nominee n found)).2
    have parts := kept
    simp only [Governance.about, Prod.mk.injEq] at parts
    obtain ⟨settings, _, nominations⟩ := parts
    refine (taken.governed.about_kept (settings.trans seen) key ?_ ?_).trans kept
    · intro signer presented
      obtain ⟨w, found, rfl⟩ := taken.as_admin presented
      have same : some w.settings = some v.settings :=
        (congrArg (Option.map VaultState.settings) found).symm.trans (settings.trans seen)
      have holder : w.admin = v.admin := congrArg Settings.admin (Option.some.inj same)
      exact admin _ List.mem_cons_self (holder ▸ Instruction.asAdmin_signs presented)
    · rintro a rfl rfl
      obtain ⟨⟨s, found, named, pda⟩, n, nomination, accepts, _⟩ := taken.governed.1
      cases Option.some.inj (found.symm.trans (settings.trans seen))
      have mint := (Pubkey.vaultState.inj (named.symm.trans key)).1
      rw [pda, mint] at nomination
      obtain ⟨_, made, rfl⟩ := Option.map_eq_some_iff.mp (nominations.symm.trans nomination)
      exact nominee _ made _ List.mem_cons_self (accepts ▸ List.mem_cons_self)

/-- While the admin of a vault and its nominee sign nothing, all that the vault and the schedule of its queue are set
to stays. While the operator signs nothing either, `local_aum` is all that changes. -/
theorem silent_admin_keeps (reach : Reachable c) (vault : c.vaults.lookup k = some v) (run : Run Step c history c')
    (admin : Silent v.admin history) (nominee : ∀ n, c.nominations.lookup
      (.nominatedAdmin v.depositMint v.vaultVersion) = some n → Silent n.nominatedAdmin history) :
    ∃ v', c'.vaults.lookup k = some v' ∧ v'.settings = v.settings ∧
      (c'.queues.lookup (.withdrawalQueue k)).map WithdrawalQueue.timing =
        (c.queues.lookup (.withdrawalQueue k)).map WithdrawalQueue.timing ∧
      (Silent v.operator history → v' = { v with localAum := v'.localAum }) := by
  have seen : c.governance.vaults k = some v.settings := congrArg (Option.map VaultState.settings) vault
  induction run with
  | start => exact ⟨v, vault, rfl, rfl, fun _ => rfl⟩
  | @next history t i u previous taken ih =>
    obtain ⟨w, found, same, _, only⟩ := ih (List.forall_mem_cons.mp admin).2
      fun n found => (List.forall_mem_cons.mp (nominee n found)).2
    have kept := Run.about_kept (.next previous taken) reach vault admin nominee
    simp only [Governance.about, Prod.mk.injEq] at kept
    obtain ⟨settings, timing, _⟩ := kept
    obtain ⟨v', vault', settings'⟩ := Option.map_eq_some_iff.mp (settings.trans seen)
    refine ⟨v', vault', settings', timing, fun operator => VaultState.eq_of_parts settings' ?_⟩
    obtain ⟨now, past⟩ := List.forall_mem_cons.mp operator
    have holder : w.admin = v.admin := congrArg Settings.admin same
    have operates : w.operator = v.operator := congrArg Settings.operator same
    rw [taken.deployed_kept (reach.extend previous) found vault' (holder ▸ admin _ List.mem_cons_self)
      (operates ▸ now), only past]
    rfl

end Absence

namespace Sample

def candidate : Pubkey := .key 6

/-- The opened vault while a nomination of `candidate` is pending. -/
def standing : Chain :=
  (Chain.genesis (some admin)).runAll
    (opening ++ [.vault (.nominateAdmin ⟨vault, mint, admin⟩ (.nominatedAdmin mint 0) candidate)])

theorem standing_vault : standing.vaults.lookup vault = some vaultOpened := by decide +kernel

/-- The depositor pays in and takes out, and the clock moves. -/
def trading : List Instruction :=
  [.vault (.deposit deposit 50000), .clock 60,
    .vault (.redeem ⟨vault, reserve, wallet user, wallet admin, shares user, shareMint, mint, user⟩ 1000)]

def tradedEvents : List (Chain × Instruction) := standing.events trading

theorem standing_nomination : standing.nominations.lookup (.nominatedAdmin mint 0) =
    some ⟨candidate, oneDayInSeconds⟩ := by decide +kernel

end Sample

open Sample in
theorem traded_silent_admin_keeps :
    ∃ v', (standing.runAll trading).vaults.lookup vault = some v' ∧ v'.settings = vaultOpened.settings ∧
      ((standing.runAll trading).queues.lookup (.withdrawalQueue vault)).map WithdrawalQueue.timing =
        (standing.queues.lookup (.withdrawalQueue vault)).map WithdrawalQueue.timing ∧
      (Silent vaultOpened.operator tradedEvents → v' = { vaultOpened with localAum := v'.localAum }) := by
  refine silent_admin_keeps (Chain.runAll_reachable _ _) standing_vault (Chain.runAll_run _ _) (by decide +kernel)
    fun n found => ?_
  cases Option.some.inj (standing_nomination.symm.trans found)
  show Silent candidate tradedEvents
  decide +kernel

end Upshift
