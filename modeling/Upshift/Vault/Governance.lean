import Upshift.Vault.Handover

namespace Upshift
open Guard KeyedStore History

/-- What its address fixes about a vault and what its admin decides. No money. -/
structure Settings where
  operator : Pubkey
  admin : Pubkey
  shareMint : Pubkey
  depositMint : Pubkey
  feeRecipient : Pubkey
  withdrawalFee : Nat
  aumIncreaseLimit : Nat
  aumDecreaseLimit : Nat
  vaultVersion : Nat
  paused : Bool
  shareOffset : Nat
  withdrawalQueueAuthority : Pubkey
  deriving DecidableEq

def VaultState.settings (v : VaultState) : Settings where
  operator := v.operator
  admin := v.admin
  shareMint := v.shareMint
  depositMint := v.depositMint
  feeRecipient := v.feeRecipient
  withdrawalFee := v.withdrawalFee
  aumIncreaseLimit := v.aumIncreaseLimit
  aumDecreaseLimit := v.aumDecreaseLimit
  vaultVersion := v.vaultVersion
  paused := v.paused
  shareOffset := v.shareOffset
  withdrawalQueueAuthority := v.withdrawalQueueAuthority

/-- Whom the vault lets redeem: anyone, or its queue alone. -/
def Settings.Admits (s : Settings) (signer : Pubkey) : Prop :=
  s.withdrawalQueueAuthority = .default ∨ s.withdrawalQueueAuthority = signer

/-- The schedule of a queue. -/
structure Timing where
  cooldownSeconds : Nat
  fulfillmentWindowSeconds : Nat
  deriving DecidableEq

def WithdrawalQueue.timing (q : WithdrawalQueue) : Timing := ⟨q.cooldownSeconds, q.fulfillmentWindowSeconds⟩

/-- Who decides what, and what has been decided. -/
@[ext]
structure Governance where
  upgradeAuthority : Option Pubkey
  clock : Int
  config : Option Pubkey
  nominations : Pubkey → Option NominatedAdmin
  vaults : Pubkey → Option Settings
  queues : Pubkey → Option Timing

def Chain.governance (c : Chain) : Governance where
  upgradeAuthority := c.upgradeAuthority
  clock := c.clock
  config := c.config.map ProgramConfig.authority
  nominations := view id c.nominations
  vaults := view VaultState.settings c.vaults
  queues := view WithdrawalQueue.timing c.queues

namespace Governance

/-- New settings for one vault. -/
def amend (g : Governance) (k : Pubkey) (change : Settings → Settings) : Governance :=
  { g with vaults := Function.update g.vaults k ((g.vaults k).map change) }

/-- A new schedule for one queue. -/
def retime (g : Governance) (k : Pubkey) (change : Timing → Timing) : Governance :=
  { g with queues := Function.update g.queues k ((g.queues k).map change) }

/-- Every decision an instruction can record. One that moves money records none. -/
def apply (g : Governance) : Instruction → Governance
  | .vault (.initializeConfig _ authority) => { g with config := some authority }
  | .vault (.setConfigAuthority _ newAuthority) => { g with config := some newAuthority }
  | .vault (.overrideConfigAuthority _ newAuthority) => { g with config := some newAuthority }
  | .vault (.initializeVault a admin operator feeRecipient vaultVersion shareOffset) =>
    { g with
      vaults := Function.update g.vaults a.vaultState (some
        { operator := operator, admin := admin, shareMint := a.shareMint, depositMint := a.depositMint,
          feeRecipient := feeRecipient, withdrawalFee := 0, aumIncreaseLimit := 20, aumDecreaseLimit := 20,
          vaultVersion := vaultVersion.toNat, paused := false, shareOffset := shareOffset.toNat,
          withdrawalQueueAuthority := .default }) }
  | .vault (.setWithdrawalFee a newFee) => g.amend a.vaultState fun s => { s with withdrawalFee := newFee.toNat }
  | .vault (.setOperator a newOperator) => g.amend a.vaultState fun s => { s with operator := newOperator }
  | .vault (.setFeeRecipient a newFeeRecipient) =>
    g.amend a.vaultState fun s => { s with feeRecipient := newFeeRecipient }
  | .vault (.setAumLimits a increaseLimit decreaseLimit) => g.amend a.vaultState fun s =>
    { s with aumIncreaseLimit := increaseLimit.toNat, aumDecreaseLimit := decreaseLimit.toNat }
  | .vault (.pause a) => g.amend a.vaultState fun s => { s with paused := true }
  | .vault (.unpause a) => g.amend a.vaultState fun s => { s with paused := false }
  | .vault (.attachWithdrawalQueue a queue) =>
    g.amend a.vaultState fun s => { s with withdrawalQueueAuthority := queue }
  | .vault (.detachWithdrawalQueue a _) =>
    g.amend a.vaultState fun s => { s with withdrawalQueueAuthority := .default }
  | .vault (.nominateAdmin _ nominatedAdminPda nominatedAdmin) =>
    { g with
      nominations := Function.update g.nominations nominatedAdminPda
        (some ⟨nominatedAdmin, g.clock + oneDayInSeconds⟩) }
  | .vault (.acceptAdminNomination a) =>
    { g.amend a.vaultState fun s => { s with admin := a.newAdmin } with
      nominations := Function.update g.nominations a.nominatedAdminPda none }
  | .vault (.closeVault a) => { g with vaults := Function.update g.vaults a.vaultState none }
  | .queue (.initializeQueue a cooldownSeconds) =>
    { g with queues := Function.update g.queues a.queue (some ⟨cooldownSeconds.toNat, 0⟩) }
  | .queue (.setCooldown a seconds) => g.retime a.queue fun t => { t with cooldownSeconds := seconds.toNat }
  | .queue (.setFulfillmentWindow a seconds) =>
    g.retime a.queue fun t => { t with fulfillmentWindowSeconds := seconds.toNat }
  | .queue (.releaseVault a) => g.amend a.vaultState fun s => { s with withdrawalQueueAuthority := .default }
  | .clock now => { g with clock := now }
  | .setUpgradeAuthority newAuthority => { g with upgradeAuthority := newAuthority }
  | _ => g

/-- Whether the vault at `k` is there, with settings that satisfy `P`. -/
def Has (g : Governance) (k : Pubkey) (P : Settings → Prop) : Prop := ∃ s, g.vaults k = some s ∧ P s

/-- The admin of a vault, naming it by its mint and version. -/
def Admin (g : Governance) (a : VaultAdmin) : Prop :=
  g.Has a.vaultState fun s => a.vaultState = .vaultState a.depositMint s.vaultVersion ∧ s.admin = a.admin

/-- The admin of a vault that has a queue. -/
def Scheduler (g : Governance) (a : QueueAdmin) : Prop :=
  a.queue = .withdrawalQueue a.vaultState ∧ (g.queues a.queue).isSome ∧
    g.Has a.vaultState fun s => s.admin = a.admin

/-- Who may send an instruction, and with which values. -/
def Permits (g : Governance) : Instruction → Prop
  | .vault (.initializeConfig upgradeAuthority authority) =>
    g.upgradeAuthority = some upgradeAuthority ∧ g.config = none ∧ authority ≠ .default
  | .vault (.setConfigAuthority authority newAuthority) => g.config = some authority ∧ newAuthority ≠ .default
  | .vault (.overrideConfigAuthority upgradeAuthority newAuthority) =>
    g.upgradeAuthority = some upgradeAuthority ∧ g.config.isSome ∧ newAuthority ≠ .default
  | .vault (.initializeVault a _ _ _ vaultVersion shareOffset) =>
    g.config = some a.signer ∧ g.vaults a.vaultState = none ∧
      a.vaultState = .vaultState a.depositMint vaultVersion.toNat ∧
      VaultState.isValidShareOffset shareOffset.toNat
  | .vault (.deposit a _) | .vault (.depositChecked a _ _) => g.Has a.vaultState fun s => s.paused = false
  | .vault (.redeem a _) | .vault (.redeemChecked a _ _) =>
    g.Has a.vaultState fun s => s.paused = false ∧ s.Admits a.signer
  | .vault (.operatorWithdraw a _) | .vault (.operatorDeposit a _) =>
    g.Has a.vaultState fun s => s.operator = a.operator
  | .vault (.operatorUpdateAum a _) => g.Has a.vaultState fun s => s.operator = a.operator
  | .vault (.registerSubaccount a _) | .vault (.settleSubaccountLoss a _) | .vault (.deregisterSubaccount a) =>
    g.Has a.vaultState fun s => s.admin = a.admin
  | .vault (.setWithdrawalFee a newFee) => g.Admin a ∧ newFee.toNat < 100000
  | .vault (.setOperator a newOperator) => g.Admin a ∧ newOperator ≠ .default
  | .vault (.setFeeRecipient a _) | .vault (.pause a) | .vault (.unpause a) => g.Admin a
  | .vault (.setAumLimits a increaseLimit decreaseLimit) =>
    g.Admin a ∧ increaseLimit.toNat ≤ bpsDenominator ∧ decreaseLimit.toNat ≤ bpsDenominator
  | .vault (.attachWithdrawalQueue a queue) =>
    g.Admin a ∧ (g.Has a.vaultState fun s => s.withdrawalQueueAuthority = .default) ∧
      queue = .withdrawalQueue a.vaultState ∧ (g.queues queue).isSome
  | .vault (.detachWithdrawalQueue a queue) =>
    g.Admin a ∧ (g.Has a.vaultState fun s => s.withdrawalQueueAuthority = queue) ∧ queue ≠ .default
  | .vault (.nominateAdmin a nominatedAdminPda _) =>
    g.Admin a ∧ (g.Has a.vaultState fun s => nominatedAdminPda = .nominatedAdmin a.depositMint s.vaultVersion) ∧
      g.clock + oneDayInSeconds ≤ i64Max
  | .vault (.acceptAdminNomination a) =>
    (g.Has a.vaultState fun s => a.vaultState = .vaultState a.depositMint s.vaultVersion ∧
      a.nominatedAdminPda = .nominatedAdmin a.depositMint s.vaultVersion) ∧
      ∃ n, g.nominations a.nominatedAdminPda = some n ∧ n.nominatedAdmin = a.newAdmin ∧ g.clock < n.validUntil
  | .vault (.closeVault a) => g.Has a.vaultState fun s => s.admin = a.admin
  | .vault (.createShareTokenMetadata a _ _ _) | .vault (.updateShareTokenMetadata a _ _) =>
    g.Has a.vaultState fun s => a.vaultState = .vaultState a.depositMint s.vaultVersion ∧ s.admin = a.admin ∧
      s.paused = false
  | .queue (.initializeQueue a cooldownSeconds) =>
    (g.Has a.vaultState fun s => s.admin = a.admin) ∧ a.queue = .withdrawalQueue a.vaultState ∧
      g.queues a.queue = none ∧ cooldownSeconds.toNat ≤ maxCooldownSeconds
  | .queue (.setCooldown a seconds) => g.Scheduler a ∧ seconds.toNat ≤ maxCooldownSeconds
  | .queue (.setFulfillmentWindow a seconds) => g.Scheduler a ∧ (seconds.toNat ≠ 0 →
    minFulfillmentWindowSeconds ≤ seconds.toNat ∧ seconds.toNat ≤ maxFulfillmentWindowSeconds)
  | .queue (.requestWithdrawal a _ _ _ _) => g.Has a.vaultState fun s => s.withdrawalQueueAuthority = a.queue
  | .queue (.finalizeWithdrawal a _) => g.Has a.vaultState fun s => s.paused = false ∧ s.Admits a.queue
  | .queue (.cancelWithdrawal _ _) => True
  | .queue (.releaseVault a) => g.Admin ⟨a.vaultState, a.depositMint, a.admin⟩ ∧
    a.queue = .withdrawalQueue a.vaultState ∧ g.Has a.vaultState fun s => s.withdrawalQueueAuthority = a.queue
  | .queue (.sweepEscrowShares a) => g.Has a.vaultState fun s => s.admin = a.admin
  | .queue (.expediteRequest a _) =>
    g.Has a.vaultState fun s => a.authority = s.admin ∨ a.authority = s.operator
  | .token _ => True
  | .clock now => i64Min ≤ now ∧ now ≤ i64Max
  | .setUpgradeAuthority _ => True

/-- The machine of decisions alone. -/
def Step (g : Governance) (i : Instruction) (g' : Governance) : Prop := g.Permits i ∧ g' = g.apply i

end Governance

section Projection
variable {c c' : Chain} {k : Pubkey} {v w : VaultState}

theorem Chain.governance_has {P : Settings → Prop} (vault : c.vaults.lookup k = some v) (holds : P v.settings) :
    c.governance.Has k P :=
  ⟨v.settings, congrArg (Option.map VaultState.settings) vault, holds⟩

theorem Chain.governance_of_has {P : Settings → Prop} (has : c.governance.Has k P) :
    ∃ v, c.vaults.lookup k = some v ∧ P v.settings := by
  obtain ⟨s, seen, holds⟩ := has
  obtain ⟨v, vault, rfl⟩ := Option.map_eq_some_iff.mp seen
  exact ⟨v, vault, holds⟩

/-- An overwrite of a vault that leaves its settings alone. -/
theorem Chain.governance_kept (vault : c.vaults.lookup k = some v) (same : w.settings = v.settings) :
    { c.governance with vaults := view VaultState.settings (c.vaults.insert k w) } = c.governance :=
  Governance.ext rfl rfl rfl rfl (view_kept vault same) rfl

theorem Chain.governance_amended {change : Settings → Settings} (vault : c.vaults.lookup k = some v)
    (amended : w.settings = change v.settings) :
    { c.governance with vaults := view VaultState.settings (c.vaults.insert k w) } = c.governance.amend k change :=
  Governance.ext rfl rfl rfl rfl (view_amend vault amended) rfl

theorem VaultAdmin.update_governed {i : Instruction} {a : VaultAdmin} {change : VaultState → Result VaultState}
    {record : Settings → Settings} {P : Settings → Prop} (ran : a.update c change = .ok c')
    (decides : c.governance.apply i = c.governance.amend a.vaultState record)
    (records : ∀ v v', change v = .ok v' → P v.settings ∧ v'.settings = record v.settings)
    (permits : c.governance.Admin a → c.governance.Has a.vaultState P → c.governance.Permits i) :
    c.governance.Step i c'.governance := by
  obtain ⟨v, v', vault, key, admin, changed, rfl⟩ := VaultAdmin.update_eq_ok ran
  obtain ⟨allowed, recorded⟩ := records v v' changed
  refine ⟨permits (Chain.governance_has vault ⟨key, admin⟩) (Chain.governance_has vault allowed), ?_⟩
  rw [decides]
  exact Chain.governance_amended vault recorded

theorem QueueAdmin.update_governed {i : Instruction} {a : QueueAdmin}
    {change : WithdrawalQueue → Result WithdrawalQueue} {record : Timing → Timing} {P : Prop}
    (ran : a.update c change = .ok c') (decides : c.governance.apply i = c.governance.retime a.queue record)
    (records : ∀ q q', change q = .ok q' → P ∧ q'.timing = record q.timing)
    (permits : c.governance.Scheduler a → P → c.governance.Permits i) : c.governance.Step i c'.governance := by
  obtain ⟨q, v, q', queue, key, _, vault, admin, changed, rfl⟩ := QueueAdmin.update_eq_ok ran
  obtain ⟨allowed, recorded⟩ := records q q' changed
  have seen : c.governance.queues a.queue = some q.timing := congrArg (Option.map WithdrawalQueue.timing) queue
  refine ⟨permits ⟨key, seen ▸ rfl, Chain.governance_has vault admin⟩ allowed, ?_⟩
  rw [decides]
  exact Governance.ext rfl rfl rfl rfl rfl (view_amend queue recorded)

theorem VaultState.withdrawalQueue_eq_none : v.withdrawalQueue = none ↔ v.withdrawalQueueAuthority = .default := by
  unfold VaultState.withdrawalQueue
  split
  · rename_i set
    exact ⟨fun attached => (by cases attached), fun unset => absurd unset set⟩
  · rename_i unset
    exact ⟨fun _ => not_not.mp unset, fun _ => rfl⟩

/-- The gate of a redemption, in terms of the stored key. -/
theorem VaultState.settings_admits {signer : Pubkey} (gate : v.withdrawalQueue = none ∨ v.withdrawalQueue = some signer) :
    v.settings.Admits signer :=
  gate.imp VaultState.withdrawalQueue_eq_none.mp fun attached => (VaultState.withdrawalQueue_eq attached).1

end Projection

section Simulation
variable {c c' : Chain}

theorem VaultInstruction.governed {j : VaultInstruction} (ran : c.executeVault j = .ok c') :
    c.governance.Step (.vault j) c'.governance := by
  cases j with
  | initializeConfig =>
    simp only [Chain.executeVault, InitializeConfig.handler, bind_eq_ok, require_eq_ok, pure_eq_ok,
      exists_const] at ran
    obtain ⟨upgrade, absent, set, rfl⟩ := ran
    exact ⟨⟨upgrade, congrArg (Option.map _) absent, set⟩, rfl⟩
  | setConfigAuthority =>
    simp only [Chain.executeVault, SetConfigAuthority.handler, bind_eq_ok, okOr_eq_ok, require_eq_ok, pure_eq_ok,
      exists_const] at ran
    obtain ⟨config, there, rfl, set, rfl⟩ := ran
    exact ⟨⟨congrArg (Option.map _) there, set⟩, rfl⟩
  | overrideConfigAuthority =>
    simp only [Chain.executeVault, OverrideConfigAuthority.handler, bind_eq_ok, okOr_eq_ok, require_eq_ok, pure_eq_ok,
      exists_const] at ran
    obtain ⟨config, there, upgrade, set, rfl⟩ := ran
    have seen : c.governance.config = some config.authority := congrArg (Option.map _) there
    exact ⟨⟨upgrade, seen ▸ rfl, set⟩, rfl⟩
  | initializeVault =>
    obtain ⟨_, _, _, spec, rfl⟩ := Initialize.handler_eq_ok ran
    refine ⟨⟨congrArg (Option.map _) spec.config, congrArg (Option.map _) spec.fresh, spec.key, spec.offset⟩, ?_⟩
    exact Governance.ext rfl rfl rfl rfl view_insert rfl
  | deposit | depositChecked =>
    obtain ⟨_, _, _, _, _, spec, rfl⟩ := Deposit.handlerChecked_eq_ok.mp ran
    exact ⟨Chain.governance_has spec.valid.vault spec.running, Chain.governance_kept spec.valid.vault rfl⟩
  | redeem | redeemChecked =>
    obtain ⟨_, _, _, _, _, spec, rfl⟩ := Redeem.handlerChecked_eq_ok.mp ran
    exact ⟨Chain.governance_has spec.valid.vault ⟨spec.running, VaultState.settings_admits spec.gate⟩,
      Chain.governance_kept spec.valid.vault rfl⟩
  | operatorWithdraw =>
    obtain ⟨_, _, _, _, _, spec, rfl⟩ := OperatorWithdraw.handler_eq_ok ran
    exact ⟨Chain.governance_has spec.valid.vault spec.valid.operator, Chain.governance_kept spec.valid.vault rfl⟩
  | operatorDeposit =>
    obtain ⟨_, _, _, _, spec, rfl⟩ := OperatorDeposit.handler_eq_ok ran
    exact ⟨Chain.governance_has spec.valid.vault spec.valid.operator, Chain.governance_kept spec.valid.vault rfl⟩
  | operatorUpdateAum =>
    obtain ⟨_, spec, rfl⟩ := OperatorUpdateAum.handler_eq_ok ran
    exact ⟨Chain.governance_has spec.vault spec.operator, Chain.governance_kept spec.vault rfl⟩
  | registerSubaccount =>
    obtain ⟨_, _, spec, rfl⟩ := RegisterSubaccount.handler_eq_ok ran
    exact ⟨Chain.governance_has spec.vault spec.admin, Chain.governance_kept spec.vault rfl⟩
  | settleSubaccountLoss =>
    obtain ⟨_, _, _, spec, rfl⟩ := SettleSubaccountLoss.handler_eq_ok ran
    exact ⟨Chain.governance_has spec.vault spec.admin, Chain.governance_kept spec.vault rfl⟩
  | deregisterSubaccount =>
    obtain ⟨_, _, spec, rfl⟩ := DeregisterSubaccount.handler_eq_ok ran
    exact ⟨Chain.governance_has spec.vault spec.admin, Chain.governance_kept spec.vault rfl⟩
  | setFeeRecipient | pause | unpause =>
    refine VaultAdmin.update_governed (P := fun _ => True) ran rfl (fun v v' changed => ?_) fun admin _ => admin
    cases pure_eq_ok.mp changed
    exact ⟨trivial, rfl⟩
  | setWithdrawalFee a newFee =>
    refine VaultAdmin.update_governed (P := fun _ => newFee.toNat < 100000) ran rfl (fun v v' changed => ?_) ?_
    · simp only [bind_eq_ok, require_eq_ok, pure_eq_ok, exists_const] at changed
      obtain ⟨bound, rfl⟩ := changed
      exact ⟨bound, rfl⟩
    · rintro admin ⟨_, _, bound⟩
      exact ⟨admin, bound⟩
  | setOperator a newOperator =>
    refine VaultAdmin.update_governed (P := fun _ => newOperator ≠ .default) ran rfl (fun v v' changed => ?_) ?_
    · simp only [bind_eq_ok, require_eq_ok, pure_eq_ok, exists_const] at changed
      obtain ⟨set, rfl⟩ := changed
      exact ⟨set, rfl⟩
    · rintro admin ⟨_, _, set⟩
      exact ⟨admin, set⟩
  | setAumLimits a increaseLimit decreaseLimit =>
    refine VaultAdmin.update_governed (P := fun _ => increaseLimit.toNat ≤ bpsDenominator ∧
      decreaseLimit.toNat ≤ bpsDenominator) ran rfl (fun v v' changed => ?_) ?_
    · simp only [bind_eq_ok, require_eq_ok, pure_eq_ok, exists_const] at changed
      obtain ⟨increase, decrease, rfl⟩ := changed
      exact ⟨⟨increase, decrease⟩, rfl⟩
    · rintro admin ⟨_, _, bounds⟩
      exact ⟨admin, bounds⟩
  | attachWithdrawalQueue a queue =>
    refine VaultAdmin.update_governed (P := fun s => s.withdrawalQueueAuthority = .default ∧
      queue = .withdrawalQueue a.vaultState ∧ (c.governance.queues queue).isSome) ran rfl (fun v v' changed => ?_) ?_
    · simp only [bind_eq_ok, require_eq_ok, pure_eq_ok, exists_const] at changed
      obtain ⟨free, key, initialized, rfl⟩ := changed
      refine ⟨⟨VaultState.withdrawalQueue_eq_none.mp free, key, ?_⟩, rfl⟩
      exact Option.isSome_map.trans initialized
    · rintro admin ⟨s, seen, free, key, initialized⟩
      exact ⟨admin, ⟨s, seen, free⟩, key, initialized⟩
  | detachWithdrawalQueue a queue =>
    refine VaultAdmin.update_governed (P := fun s => s.withdrawalQueueAuthority = queue ∧ queue ≠ .default) ran rfl
      (fun v v' changed => ?_) ?_
    · simp only [bind_eq_ok, okOr_eq_ok, require_eq_ok, pure_eq_ok, exists_const] at changed
      obtain ⟨_, attached, rfl, rfl⟩ := changed
      exact ⟨VaultState.withdrawalQueue_eq attached, rfl⟩
    · rintro admin ⟨s, seen, attached, set⟩
      exact ⟨admin, ⟨s, seen, attached⟩, set⟩
  | nominateAdmin =>
    simp only [Chain.executeVault, NominateAdmin.handler, NominatedAdmin.init, bind_eq_ok, require_eq_ok, pure_eq_ok,
      exists_const] at ran
    obtain ⟨v, accounts, pdaKey, _, ⟨fits, rfl⟩, rfl⟩ := ran
    obtain ⟨vault, key, admin⟩ := VaultAdmin.accounts_eq_ok accounts
    refine ⟨⟨Chain.governance_has vault ⟨key, admin⟩, Chain.governance_has vault pdaKey, fits⟩, ?_⟩
    exact Governance.ext rfl rfl rfl view_insert rfl rfl
  | acceptAdminNomination a =>
    simp only [Chain.executeVault, AcceptAdminNomination.handler, NominatedAdmin.validAcceptNomination, bind_eq_ok,
      Chain.vaultAt_eq_ok, fetch_eq_ok, require_eq_ok, pure_eq_ok, exists_const] at ran
    obtain ⟨v, ⟨vault, _, key⟩, n, nomination, pdaKey, ⟨nominee, valid⟩, rfl⟩ := ran
    have seen : c.governance.nominations a.nominatedAdminPda = some n := congrArg (Option.map id) nomination
    have nominee : n.nominatedAdmin = a.newAdmin := of_decide_eq_true nominee
    refine ⟨⟨Chain.governance_has vault ⟨key, pdaKey⟩, n, seen, nominee, of_decide_eq_true valid⟩, ?_⟩
    exact Governance.ext rfl rfl rfl view_erase (view_amend vault (nominee ▸ rfl)) rfl
  | createShareTokenMetadata | updateShareTokenMetadata =>
    obtain ⟨⟨v, valid⟩, _, rfl⟩ := ShareTokenMetadata.invoke_eq_ok.mp ran
    exact ⟨Chain.governance_has valid.vault ⟨valid.key, valid.admin.symm, valid.running⟩, rfl⟩
  | closeVault =>
    obtain ⟨_, _, _, _, spec, rfl⟩ := CloseVault.handler_eq_ok ran
    exact ⟨Chain.governance_has spec.vault spec.admin, Governance.ext rfl rfl rfl rfl view_erase rfl⟩

theorem QueueInstruction.governed {j : QueueInstruction} (ran : c.executeQueue j = .ok c') :
    c.governance.Step (.queue j) c'.governance := by
  cases j with
  | initializeQueue =>
    obtain ⟨v, _, _, _, spec, rfl⟩ := InitializeQueue.handler_eq_ok ran
    refine ⟨⟨Chain.governance_has spec.vault spec.admin, spec.key, congrArg (Option.map _) spec.fresh, spec.cooldown⟩,
      ?_⟩
    exact Governance.ext rfl rfl rfl rfl rfl view_insert
  | setCooldown a seconds =>
    have ran : SetCooldown.handler c a seconds.toNat = .ok c' := ran
    refine QueueAdmin.update_governed ran rfl (fun q q' changed => ?_) fun scheduler bound => ⟨scheduler, bound⟩
    obtain ⟨bound, rfl⟩ := WithdrawalQueue.setCooldown_eq_ok.mp changed
    exact ⟨bound, rfl⟩
  | setFulfillmentWindow a seconds =>
    have ran : SetFulfillmentWindow.handler c a seconds.toNat = .ok c' := ran
    refine QueueAdmin.update_governed ran rfl (fun q q' changed => ?_) fun scheduler bounds => ⟨scheduler, bounds⟩
    obtain ⟨least, most, rfl⟩ := WithdrawalQueue.setFulfillmentWindow_eq_ok.mp changed
    exact ⟨fun limited => ⟨least limited, most limited⟩, rfl⟩
  | requestWithdrawal =>
    obtain ⟨q, v, _, spec, rfl⟩ := RequestWithdrawal.handler_eq_ok ran
    refine ⟨Chain.governance_has spec.vault (VaultState.withdrawalQueue_eq spec.attached).1, ?_⟩
    exact Governance.ext rfl rfl rfl rfl rfl (view_kept spec.queue rfl)
  | finalizeWithdrawal =>
    obtain ⟨_, _, _, _, _, _, _, _, _, _, _, spec, rfl⟩ := FinalizeWithdrawal.handler_eq_ok.mp ran
    have vault := spec.redeem.valid.vault
    refine ⟨Chain.governance_has vault ⟨spec.redeem.running, VaultState.settings_admits spec.redeem.gate⟩, ?_⟩
    exact Governance.ext rfl rfl rfl rfl (view_kept vault rfl) (view_kept spec.valid.queue rfl)
  | cancelWithdrawal =>
    obtain ⟨_, _, _, spec, rfl⟩ := CancelWithdrawal.handler_eq_ok.mp ran
    exact ⟨trivial, Governance.ext rfl rfl rfl rfl rfl (view_kept spec.queue rfl)⟩
  | releaseVault a =>
    simp only [Chain.executeQueue, ReleaseVault.handler, DetachWithdrawalQueue.handler, bind_eq_ok, Prod.exists,
      Chain.queueOfVault_eq_ok, require_eq_ok, requireVaultAdmin_eq_ok, pure_eq_ok, exists_const] at ran
    obtain ⟨q, v, ⟨_, queueKey, _, _⟩, _, _, _, detached, rfl⟩ := ran
    obtain ⟨⟨admin, attached, _⟩, same⟩ := @VaultInstruction.governed c _
      (.detachWithdrawalQueue ⟨a.vaultState, a.depositMint, a.admin⟩ a.queue) detached
    exact ⟨⟨admin, queueKey, attached⟩, same⟩
  | sweepEscrowShares =>
    obtain ⟨_, _, _, _, spec, rfl⟩ := SweepEscrowShares.handler_eq_ok.mp ran
    exact ⟨Chain.governance_has spec.vault spec.admin, rfl⟩
  | expediteRequest =>
    obtain ⟨_, _, _, spec, rfl⟩ := ExpediteRequest.handler_eq_ok ran
    exact ⟨Chain.governance_has spec.vault spec.authority, rfl⟩

/-- Every step is one of the machine of decisions. -/
theorem Step.governed {i : Instruction} (taken : Step c i c') : c.governance.Step i c'.governance := by
  have ran := taken.executed
  cases i with
  | vault => exact VaultInstruction.governed ran
  | queue => exact QueueInstruction.governed ran
  | token =>
    simp only [Chain.execute, bind_eq_ok, pure_eq_ok] at ran
    obtain ⟨_, _, rfl⟩ := ran
    exact ⟨trivial, rfl⟩
  | clock =>
    simp only [Chain.execute, bind_eq_ok, require_eq_ok, pure_eq_ok, exists_const] at ran
    obtain ⟨range, rfl⟩ := ran
    exact ⟨range, rfl⟩
  | setUpgradeAuthority =>
    cases pure_eq_ok.mp ran
    exact ⟨trivial, rfl⟩

/-- The decisions after a list of instructions, latest first. -/
def Governance.replay (g : Governance) (instructions : List Instruction) : Governance :=
  instructions.foldr (fun i g => g.apply i) g

theorem Governance.run_replay {g g' : Governance} {history : List (Governance × Instruction)}
    (run : Run Governance.Step g history g') : g' = g.replay (history.map Prod.snd) := by
  induction run with
  | start => rfl
  | next _ taken ih =>
    obtain ⟨_, rfl⟩ := taken
    rw [ih]
    rfl

/-- The decisions in force are those of the instructions taken, in their order, and each of these was permitted by
the decisions before it. -/
theorem Run.decisions_replayed {history : List (Chain × Instruction)} (run : Run Step c history c') :
    c'.governance = c.governance.replay (history.map Prod.snd) ∧
      ∀ later t i earlier, history = later ++ (t, i) :: earlier →
        (c.governance.replay (earlier.map Prod.snd)).Permits i := by
  have replayed : ∀ {d past}, Run Step c past d → d.governance = c.governance.replay (past.map Prod.snd) := by
    intro d past run
    have seen := run.simulate Chain.governance fun _ _ _ taken => Step.governed taken
    rw [Governance.run_replay seen, List.map_map]
    rfl
  refine ⟨replayed run, ?_⟩
  rintro later t i earlier rfl
  obtain ⟨_, before, taken, _⟩ := Run.split run
  exact replayed before ▸ taken.governed.1

end Simulation

namespace Sample

/-- What has been taken since the start. -/
def openingEvents : List (Chain × Instruction) := (Chain.genesis (some admin)).events opening

theorem opening_run : Run Step (Chain.genesis (some admin)) openingEvents opened := Chain.runAll_run _ _

end Sample

open Sample in
theorem opened_decisions_replayed :
    opened.governance = (Chain.genesis (some admin)).governance.replay (openingEvents.map Prod.snd) ∧
      ∀ later t i earlier, openingEvents = later ++ (t, i) :: earlier →
        ((Chain.genesis (some admin)).governance.replay (earlier.map Prod.snd)).Permits i :=
  Run.decisions_replayed opening_run

end Upshift
