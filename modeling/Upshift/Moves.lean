import Upshift.System
import Upshift.Token.Ledger

namespace Upshift
open Guard KeyedStore

/-- Instructions that touch neither tokens nor any vault, subaccount, queue or request. -/
def Instruction.quiet : Instruction → Bool
  | .vault (.initializeConfig ..) | .vault (.setConfigAuthority ..) | .vault (.overrideConfigAuthority ..) => true
  | .vault (.nominateAdmin ..) | .vault (.createShareTokenMetadata ..) | .vault (.updateShareTokenMetadata ..) => true
  | .clock _ | .setUpgradeAuthority _ => true
  | _ => false

/-- The vault whose roles, fee, limits or pause flag an instruction sets. -/
def Instruction.configures : Instruction → Option Pubkey
  | .vault (.setWithdrawalFee a _) | .vault (.setOperator a _) | .vault (.setFeeRecipient a _) => some a.vaultState
  | .vault (.setAumLimits a _ _) | .vault (.pause a) | .vault (.unpause a) => some a.vaultState
  | .vault (.acceptAdminNomination a) => some a.vaultState
  | _ => none

/-- Both deposits, with the amount and the bound on the shares. -/
def Instruction.deposits : Instruction → Option (Deposit × Nat × Nat)
  | .vault (.deposit a amount) => some (a, amount.toNat, 0)
  | .vault (.depositChecked a amount minSharesOut) => some (a, amount.toNat, minSharesOut.toNat)
  | _ => none

/-- Both direct redemptions, with the shares and the bound on the assets. -/
def Instruction.redeems : Instruction → Option (Redeem × Nat × Nat)
  | .vault (.redeem a shares) => some (a, shares.toNat, 0)
  | .vault (.redeemChecked a shares minAssetsOut) => some (a, shares.toNat, minAssetsOut.toNat)
  | _ => none

/-- The vault and the queue of a release, or of a direct call of `detach_withdrawal_queue`. -/
def Instruction.detaches : Instruction → Option (Pubkey × Pubkey)
  | .vault (.detachWithdrawalQueue a signer) => some (a.vaultState, signer)
  | .queue (.releaseVault a) => some (a.vaultState, a.queue)
  | _ => none

/-- The queue whose cooldown or window an instruction sets. -/
def Instruction.schedules : Instruction → Option Pubkey
  | .queue (.setCooldown a _) | .queue (.setFulfillmentWindow a _) => some a.queue
  | _ => none

/-- An admin setter leaves the identity, the money and the queue of the vault alone, and keeps
the fee and the limits in range. -/
structure VaultState.Configured (v v' : VaultState) : Prop where
  shareMint : v'.shareMint = v.shareMint
  depositMint : v'.depositMint = v.depositMint
  vaultVersion : v'.vaultVersion = v.vaultVersion
  shareOffset : v'.shareOffset = v.shareOffset
  localAum : v'.localAum = v.localAum
  deployedAum : v'.deployedAum = v.deployedAum
  queue : v'.withdrawalQueueAuthority = v.withdrawalQueueAuthority
  subaccountCount : v'.subaccountCount = v.subaccountCount
  deployedPrincipal : v'.deployedPrincipal = v.deployedPrincipal
  fee : v.withdrawalFee < 100000 → v'.withdrawalFee < 100000
  increase : v.aumIncreaseLimit ≤ bpsDenominator → v'.aumIncreaseLimit ≤ bpsDenominator
  decrease : v.aumDecreaseLimit ≤ bpsDenominator → v'.aumDecreaseLimit ≤ bpsDenominator

/-- A queue setter leaves everything but the schedule parameters alone. -/
structure WithdrawalQueue.Configured (q q' : WithdrawalQueue) : Prop where
  vaultState : q'.vaultState = q.vaultState
  depositMint : q'.depositMint = q.depositMint
  shareMint : q'.shareMint = q.shareMint
  escrowShares : q'.escrowShares = q.escrowShares
  escrowAssets : q'.escrowAssets = q.escrowAssets
  sequence : q'.sequence = q.sequence
  pendingRequests : q'.pendingRequests = q.pendingRequests
  pendingShares : q'.pendingShares = q.pendingShares

/-- Everything a successful instruction can do. -/
inductive Move (c : Chain) (i : Instruction) : Chain → Prop
  | quiet {c'} (label : i.quiet) (bank : c'.bank = c.bank) (vaults : c'.vaults = c.vaults)
      (subaccounts : c'.subaccounts = c.subaccounts) (queues : c'.queues = c.queues)
      (requests : c'.requests = c.requests) (log : c'.log = c.log) : Move c i c'
  | configured {k v v' c'} (label : i.configures = some k) (vault : c.vaults.lookup k = some v)
      (change : v.Configured v') (bank : c'.bank = c.bank) (vaults : c'.vaults = c.vaults.insert k v')
      (subaccounts : c'.subaccounts = c.subaccounts) (queues : c'.queues = c.queues)
      (requests : c'.requests = c.requests) (log : c'.log = c.log) : Move c i c'
  | attached {a queue v} (label : i = .vault (.attachWithdrawalQueue a queue))
      (vault : c.vaults.lookup a.vaultState = some v) (admin : v.admin = a.admin)
      (free : v.withdrawalQueue = none) (key : queue = withdrawalQueuePda a.vaultState)
      (initialized : (c.queues.lookup queue).isSome) :
      Move c i { c with vaults := c.vaults.insert a.vaultState { v with withdrawalQueueAuthority := queue } }
  | detached {k queue v c'} (label : i.detaches = some (k, queue)) (vault : c.vaults.lookup k = some v)
      (attached : v.withdrawalQueue = some queue) (bank : c'.bank = c.bank)
      (vaults : c'.vaults = c.vaults.insert k { v with withdrawalQueueAuthority := .default })
      (subaccounts : c'.subaccounts = c.subaccounts) (queues : c'.queues = c.queues)
      (requests : c'.requests = c.requests) : Move c i c'
  | reported {a newAum v} (label : i = .vault (.operatorUpdateAum a newAum))
      (ran : OperatorUpdateAum.Ran c a newAum.toNat v) : Move c i (OperatorUpdateAum.after c a newAum.toNat v)
  | registered {a address v ata} (label : i = .vault (.registerSubaccount a address))
      (ran : RegisterSubaccount.Ran c a address v ata) : Move c i (RegisterSubaccount.after c a address v)
  | deregistered {a v s} (label : i = .vault (.deregisterSubaccount a))
      (ran : DeregisterSubaccount.Ran c a v s) : Move c i (DeregisterSubaccount.after c a v)
  | settled {a amount v s ata} (label : i = .vault (.settleSubaccountLoss a amount))
      (ran : SettleSubaccountLoss.Ran c a amount.toNat v s ata) :
      Move c i (SettleSubaccountLoss.after c a amount.toNat v s)
  | initialized {a admin operator feeRecipient vaultVersion shareOffset deposit withMint withReserve}
      (label : i = .vault (.initializeVault a admin operator feeRecipient vaultVersion shareOffset))
      (ran : Initialize.Ran c a vaultVersion.toNat shareOffset.toNat deposit withMint withReserve) :
      Move c i (Initialize.after c a admin operator feeRecipient vaultVersion.toNat shareOffset.toNat withReserve)
  | closed {a v m closed revoked} (label : i = .vault (.closeVault a))
      (ran : CloseVault.Ran c a v m closed revoked) : Move c i (CloseVault.after c a revoked)
  | deposited {a amount minSharesOut v m shares paid minted}
      (label : i.deposits = some (a, amount, minSharesOut))
      (ran : Deposit.Ran c a amount minSharesOut v m shares paid minted) :
      Move c i (Deposit.after c a amount v minted)
  | redeemed {a shares minAssetsOut v m assets fees paid} (label : i.redeems = some (a, shares, minAssetsOut))
      (ran : Redeem.Ran c a shares minAssetsOut v m assets fees paid) : Move c i (Redeem.after c a v assets paid)
  | withdrew {a amount v dest entry paid subaccounts} (label : i = .vault (.operatorWithdraw a amount))
      (ran : OperatorWithdraw.Ran c a amount.toNat v dest entry paid subaccounts) :
      Move c i (OperatorWithdraw.after c a amount.toNat v paid subaccounts)
  | returned {a amount v source entry paid} (label : i = .vault (.operatorDeposit a amount))
      (ran : OperatorDeposit.Ran c a amount.toNat v source entry paid) :
      Move c i (OperatorDeposit.after c a amount.toNat v entry paid)
  | opened {a cooldown v m withShares withAssets} (label : i = .queue (.initializeQueue a cooldown))
      (ran : InitializeQueue.Ran c a cooldown.toNat v m withShares withAssets) :
      Move c i (InitializeQueue.after c a cooldown.toNat withAssets)
  | scheduled {k q q' c'} (label : i.schedules = some k) (queue : c.queues.lookup k = some q)
      (change : q.Configured q') (bank : c'.bank = c.bank) (vaults : c'.vaults = c.vaults)
      (subaccounts : c'.subaccounts = c.subaccounts) (queues : c'.queues = c.queues.insert k q')
      (requests : c'.requests = c.requests) : Move c i c'
  | requested {a requestId shares minAssetsOut finalizer q v escrowed}
      (label : i = .queue (.requestWithdrawal a requestId shares minAssetsOut finalizer))
      (ran : RequestWithdrawal.Ran c a requestId.toNat shares.toNat q v escrowed) :
      Move c i (RequestWithdrawal.after c a shares.toNat q
        (RequestWithdrawal.record c a requestId.toNat shares.toNat minAssetsOut.toNat finalizer q) escrowed)
  | cancelled {a expectedSequence q r returned} (label : i = .queue (.cancelWithdrawal a expectedSequence))
      (ran : CancelWithdrawal.Ran c a expectedSequence.toNat q r returned) :
      Move c i (CancelWithdrawal.after c a q r returned)
  | expedited {a expectedSequence q v r} (label : i = .queue (.expediteRequest a expectedSequence))
      (ran : ExpediteRequest.Ran c a expectedSequence.toNat q v r) : Move c i (ExpediteRequest.after c a q r)
  | finalized {a expectedSequence q r recipient escrow escrow' v m assets fees paid forwarded}
      (label : i = .queue (.finalizeWithdrawal a expectedSequence))
      (ran : FinalizeWithdrawal.Ran c a expectedSequence.toNat q r recipient escrow escrow' v m assets fees paid
        forwarded) :
      Move c i (FinalizeWithdrawal.after c a q r v assets (escrow'.amount - escrow.amount) forwarded)
  | swept {a q v escrow swept} (label : i = .queue (.sweepEscrowShares a))
      (ran : SweepEscrowShares.Ran c a q v escrow swept) : Move c i (SweepEscrowShares.after c a q escrow swept)
  | banked {t bank} (label : i = .token t) (ran : c.bank.execute t = .ok bank) : Move c i { c with bank := bank }

/-- A deposit is of one of the two forms. -/
theorem Instruction.deposits_eq_some {i : Instruction} {a : Deposit} {amount minSharesOut : Nat}
    (label : i.deposits = some (a, amount, minSharesOut)) :
    (∃ x, i = .vault (.deposit a x) ∧ amount = x.toNat ∧ minSharesOut = 0) ∨
      ∃ x y, i = .vault (.depositChecked a x y) ∧ amount = x.toNat ∧ minSharesOut = y.toNat := by
  unfold Instruction.deposits at label
  split at label
  · cases label
    exact Or.inl ⟨_, rfl, rfl, rfl⟩
  · cases label
    exact Or.inr ⟨_, _, rfl, rfl, rfl⟩
  · cases label

theorem Instruction.redeems_eq_some {i : Instruction} {a : Redeem} {shares minAssetsOut : Nat}
    (label : i.redeems = some (a, shares, minAssetsOut)) :
    (∃ x, i = .vault (.redeem a x) ∧ shares = x.toNat ∧ minAssetsOut = 0) ∨
      ∃ x y, i = .vault (.redeemChecked a x y) ∧ shares = x.toNat ∧ minAssetsOut = y.toNat := by
  unfold Instruction.redeems at label
  split at label
  · cases label
    exact Or.inl ⟨_, rfl, rfl, rfl⟩
  · cases label
    exact Or.inr ⟨_, _, rfl, rfl, rfl⟩
  · cases label

theorem VaultAdmin.update_configured {c c' : Chain} {i : Instruction} {a : VaultAdmin}
    {change : VaultState → Result VaultState} (ran : a.update c change = .ok c')
    (label : i.configures = some a.vaultState)
    (configures : ∀ v v', change v = .ok v' → v.Configured v') : Move c i c' := by
  obtain ⟨v, v', vault, _, _, changed, rfl⟩ := VaultAdmin.update_eq_ok ran
  exact .configured label vault (configures v v' changed) rfl rfl rfl rfl rfl rfl

theorem QueueAdmin.update_scheduled {c c' : Chain} {i : Instruction} {a : QueueAdmin}
    {change : WithdrawalQueue → Result WithdrawalQueue} (ran : a.update c change = .ok c')
    (label : i.schedules = some a.queue)
    (configures : ∀ q q', change q = .ok q' → q.Configured q') : Move c i c' := by
  obtain ⟨q, v, q', queue, _, _, _, _, changed, rfl⟩ := QueueAdmin.update_eq_ok ran
  exact .scheduled label queue (configures q q' changed) rfl rfl rfl rfl rfl

theorem Step.signed {c c' : Chain} {i : Instruction} (taken : Step c i c') :
    ∀ a ∈ i.signers, a.canSign = true := by
  simp only [Step, Chain.process, bind_eq_ok, require_eq_ok, exists_const, List.all_eq_true] at taken
  exact taken.1

theorem Step.executed {c c' : Chain} {i : Instruction} (taken : Step c i c') : c.execute i = .ok c' := by
  simp only [Step, Chain.process, bind_eq_ok, require_eq_ok, exists_const] at taken
  exact taken.2

theorem Step.of_executed {c c' : Chain} {i : Instruction} (signed : ∀ a ∈ i.signers, a.canSign = true)
    (ran : c.execute i = .ok c') : Step c i c' := by
  simp only [Step, Chain.process, bind_eq_ok, require_eq_ok, exists_const, List.all_eq_true]
  exact ⟨signed, ran⟩

theorem VaultInstruction.move {c c' : Chain} {i : VaultInstruction} (ran : c.executeVault i = .ok c') :
    Move c (.vault i) c' := by
  cases i with
  | initializeConfig =>
    simp only [Chain.executeVault, InitializeConfig.handler, bind_eq_ok, require_eq_ok, pure_eq_ok,
      exists_const] at ran
    obtain ⟨_, _, _, rfl⟩ := ran
    exact .quiet rfl rfl rfl rfl rfl rfl rfl
  | setConfigAuthority =>
    simp only [Chain.executeVault, SetConfigAuthority.handler, bind_eq_ok, require_eq_ok, pure_eq_ok,
      exists_const] at ran
    obtain ⟨_, _, _, _, rfl⟩ := ran
    exact .quiet rfl rfl rfl rfl rfl rfl rfl
  | overrideConfigAuthority =>
    simp only [Chain.executeVault, OverrideConfigAuthority.handler, bind_eq_ok, require_eq_ok, pure_eq_ok,
      exists_const] at ran
    obtain ⟨_, _, _, _, rfl⟩ := ran
    exact .quiet rfl rfl rfl rfl rfl rfl rfl
  | initializeVault =>
    obtain ⟨_, _, _, spec, rfl⟩ := Initialize.handler_eq_ok ran
    exact .initialized rfl spec
  | deposit =>
    obtain ⟨_, _, _, _, _, spec, rfl⟩ := Deposit.handlerChecked_eq_ok.mp ran
    exact .deposited rfl spec
  | depositChecked =>
    obtain ⟨_, _, _, _, _, spec, rfl⟩ := Deposit.handlerChecked_eq_ok.mp ran
    exact .deposited rfl spec
  | redeem =>
    obtain ⟨_, _, _, _, _, spec, rfl⟩ := Redeem.handlerChecked_eq_ok.mp ran
    exact .redeemed rfl spec
  | redeemChecked =>
    obtain ⟨_, _, _, _, _, spec, rfl⟩ := Redeem.handlerChecked_eq_ok.mp ran
    exact .redeemed rfl spec
  | operatorWithdraw =>
    obtain ⟨_, _, _, _, _, spec, rfl⟩ := OperatorWithdraw.handler_eq_ok ran
    exact .withdrew rfl spec
  | operatorDeposit =>
    obtain ⟨_, _, _, _, spec, rfl⟩ := OperatorDeposit.handler_eq_ok ran
    exact .returned rfl spec
  | operatorUpdateAum =>
    obtain ⟨_, spec, rfl⟩ := OperatorUpdateAum.handler_eq_ok ran
    exact .reported rfl spec
  | registerSubaccount =>
    obtain ⟨_, _, spec, rfl⟩ := RegisterSubaccount.handler_eq_ok ran
    exact .registered rfl spec
  | settleSubaccountLoss =>
    obtain ⟨_, _, _, spec, rfl⟩ := SettleSubaccountLoss.handler_eq_ok ran
    exact .settled rfl spec
  | deregisterSubaccount =>
    obtain ⟨_, _, spec, rfl⟩ := DeregisterSubaccount.handler_eq_ok ran
    exact .deregistered rfl spec
  | setWithdrawalFee =>
    change VaultAdmin.update _ c _ = _ at ran
    refine VaultAdmin.update_configured ran rfl fun v v' changed => ?_
    simp only [bind_eq_ok, require_eq_ok, pure_eq_ok, exists_const] at changed
    obtain ⟨bound, rfl⟩ := changed
    exact ⟨rfl, rfl, rfl, rfl, rfl, rfl, rfl, rfl, rfl, fun _ => bound, id, id⟩
  | nominateAdmin =>
    simp only [Chain.executeVault, NominateAdmin.handler, bind_eq_ok, require_eq_ok, pure_eq_ok,
      exists_const] at ran
    obtain ⟨_, _, _, _, _, rfl⟩ := ran
    exact .quiet rfl rfl rfl rfl rfl rfl rfl
  | acceptAdminNomination =>
    simp only [Chain.executeVault, AcceptAdminNomination.handler, bind_eq_ok, Chain.vaultAt_eq_ok, require_eq_ok,
      pure_eq_ok, exists_const] at ran
    obtain ⟨v, ⟨vault, _, _⟩, nomination, _, _, _, _, rfl⟩ := ran
    have change : v.Configured { v with admin := nomination.nominatedAdmin } :=
      ⟨rfl, rfl, rfl, rfl, rfl, rfl, rfl, rfl, rfl, id, id, id⟩
    exact .configured rfl vault change rfl rfl rfl rfl rfl rfl
  | setOperator =>
    change VaultAdmin.update _ c _ = _ at ran
    refine VaultAdmin.update_configured ran rfl fun v v' changed => ?_
    simp only [bind_eq_ok, require_eq_ok, pure_eq_ok, exists_const] at changed
    obtain ⟨_, rfl⟩ := changed
    exact ⟨rfl, rfl, rfl, rfl, rfl, rfl, rfl, rfl, rfl, id, id, id⟩
  | setFeeRecipient =>
    change VaultAdmin.update _ c _ = _ at ran
    refine VaultAdmin.update_configured ran rfl fun v v' changed => ?_
    cases pure_eq_ok.mp changed
    exact ⟨rfl, rfl, rfl, rfl, rfl, rfl, rfl, rfl, rfl, id, id, id⟩
  | setAumLimits =>
    change VaultAdmin.update _ c _ = _ at ran
    refine VaultAdmin.update_configured ran rfl fun v v' changed => ?_
    simp only [bind_eq_ok, require_eq_ok, pure_eq_ok, exists_const] at changed
    obtain ⟨increase, decrease, rfl⟩ := changed
    exact ⟨rfl, rfl, rfl, rfl, rfl, rfl, rfl, rfl, rfl, id, fun _ => increase, fun _ => decrease⟩
  | attachWithdrawalQueue =>
    obtain ⟨v, v', vault, _, admin, changed, rfl⟩ := VaultAdmin.update_eq_ok ran
    simp only [bind_eq_ok, require_eq_ok, pure_eq_ok, exists_const] at changed
    obtain ⟨free, key, initialized, rfl⟩ := changed
    exact .attached rfl vault admin free key initialized
  | detachWithdrawalQueue =>
    obtain ⟨v, v', vault, _, _, changed, rfl⟩ := VaultAdmin.update_eq_ok ran
    simp only [bind_eq_ok, okOr_eq_ok, require_eq_ok, pure_eq_ok, exists_const] at changed
    obtain ⟨_, attached, rfl, rfl⟩ := changed
    exact .detached rfl vault attached rfl rfl rfl rfl rfl
  | pause =>
    change VaultAdmin.update _ c _ = _ at ran
    refine VaultAdmin.update_configured ran rfl fun v v' changed => ?_
    cases pure_eq_ok.mp changed
    exact ⟨rfl, rfl, rfl, rfl, rfl, rfl, rfl, rfl, rfl, id, id, id⟩
  | unpause =>
    change VaultAdmin.update _ c _ = _ at ran
    refine VaultAdmin.update_configured ran rfl fun v v' changed => ?_
    cases pure_eq_ok.mp changed
    exact ⟨rfl, rfl, rfl, rfl, rfl, rfl, rfl, rfl, rfl, id, id, id⟩
  | closeVault =>
    obtain ⟨_, _, _, _, spec, rfl⟩ := CloseVault.handler_eq_ok ran
    exact .closed rfl spec
  | createShareTokenMetadata | updateShareTokenMetadata =>
    obtain ⟨_, _, rfl⟩ := ShareTokenMetadata.invoke_eq_ok.mp ran
    exact .quiet rfl rfl rfl rfl rfl rfl rfl

theorem QueueInstruction.move {c c' : Chain} {i : QueueInstruction} (ran : c.executeQueue i = .ok c') :
    Move c (.queue i) c' := by
  cases i with
  | initializeQueue =>
    obtain ⟨_, _, _, _, spec, rfl⟩ := InitializeQueue.handler_eq_ok ran
    exact .opened rfl spec
  | setCooldown a seconds =>
    have ran : SetCooldown.handler c a seconds.toNat = .ok c' := ran
    refine QueueAdmin.update_scheduled ran rfl fun q q' changed => ?_
    obtain ⟨_, rfl⟩ := WithdrawalQueue.setCooldown_eq_ok.mp changed
    exact ⟨rfl, rfl, rfl, rfl, rfl, rfl, rfl, rfl⟩
  | setFulfillmentWindow a seconds =>
    have ran : SetFulfillmentWindow.handler c a seconds.toNat = .ok c' := ran
    refine QueueAdmin.update_scheduled ran rfl fun q q' changed => ?_
    obtain ⟨_, _, rfl⟩ := WithdrawalQueue.setFulfillmentWindow_eq_ok.mp changed
    exact ⟨rfl, rfl, rfl, rfl, rfl, rfl, rfl, rfl⟩
  | requestWithdrawal =>
    obtain ⟨_, _, _, spec, rfl⟩ := RequestWithdrawal.handler_eq_ok ran
    exact .requested rfl spec
  | finalizeWithdrawal =>
    obtain ⟨_, _, _, _, _, _, _, _, _, _, _, spec, rfl⟩ := FinalizeWithdrawal.handler_eq_ok.mp ran
    exact .finalized rfl spec
  | cancelWithdrawal =>
    obtain ⟨_, _, _, spec, rfl⟩ := CancelWithdrawal.handler_eq_ok.mp ran
    exact .cancelled rfl spec
  | releaseVault =>
    obtain ⟨_, _, spec, rfl⟩ := ReleaseVault.handler_eq_ok ran
    exact .detached rfl spec.vault spec.attached rfl rfl rfl rfl rfl
  | sweepEscrowShares =>
    obtain ⟨_, _, _, _, spec, rfl⟩ := SweepEscrowShares.handler_eq_ok.mp ran
    exact .swept rfl spec
  | expediteRequest =>
    obtain ⟨_, _, _, spec, rfl⟩ := ExpediteRequest.handler_eq_ok ran
    exact .expedited rfl spec

/-- Every successful step is one of the moves. -/
theorem Step.move {c c' : Chain} {i : Instruction} (taken : Step c i c') : Move c i c' := by
  have ran := taken.executed
  cases i with
  | vault i => exact VaultInstruction.move ran
  | queue i => exact QueueInstruction.move ran
  | token i =>
    simp only [Chain.execute, bind_eq_ok, pure_eq_ok] at ran
    obtain ⟨_, spec, rfl⟩ := ran
    exact .banked rfl spec
  | clock now =>
    simp only [Chain.execute, bind_eq_ok, require_eq_ok, pure_eq_ok, exists_const] at ran
    obtain ⟨_, rfl⟩ := ran
    exact .quiet rfl rfl rfl rfl rfl rfl rfl
  | setUpgradeAuthority newAuthority =>
    cases pure_eq_ok.mp ran
    exact .quiet rfl rfl rfl rfl rfl rfl rfl

end Upshift
