import Upshift.Account.Ranges
import Upshift.Vault.Overflow

namespace Upshift
open Guard KeyedStore History

/-- The computation reaches no overflow of an unchecked operation. -/
def Runs {α : Type} (x : Result α) : Prop := x ≠ .error .arithmetic

section Rules
variable {α β : Type} {x : Result α} {f : α → Result β} {p : Prop} [Decidable p] {e : Error}

@[simp] theorem runs_bind : Runs (x >>= f) ↔ Runs x ∧ ∀ a, x = .ok a → Runs (f a) := by
  simp only [Runs, ne_eq, bind_eq_error, not_or, not_exists, not_and]

@[simp] theorem runs_pure (a : α) : Runs (pure a) := pure_ne_error

@[simp] theorem runs_require : Runs (require p e) ↔ (¬p → e ≠ .arithmetic) := by
  simp only [Runs, ne_eq, require_eq_error, not_and]

@[simp] theorem runs_okOr {o : Option α} : Runs (okOr o e) ↔ (o = none → e ≠ .arithmetic) := by
  simp only [Runs, ne_eq, okOr_eq_error, not_and]

@[simp] theorem runs_fetch {s : Store Pubkey α} {k : Pubkey} :
    Runs (fetch s k e) ↔ (s.lookup k = none → e ≠ .arithmetic) := by
  simp only [Runs, ne_eq, fetch_eq_error, not_and]

end Rules

section Accounts
variable {b : Bank} {c : Chain}

@[simp] theorem Bank.transfer_runs {source mint destination authority : Pubkey} {amount : Nat} :
    Runs (b.transferChecked source mint destination authority amount) := by
  intro aborted
  obtain ⟨_, token⟩ := Bank.transfer_fails _ aborted
  cases token

@[simp] theorem Bank.burn_runs {account mint authority : Pubkey} {amount : Nat} :
    Runs (b.burnChecked account mint authority amount) := by
  intro aborted
  obtain ⟨_, token⟩ := Bank.burn_fails _ aborted
  cases token

@[simp] theorem Bank.mintTo_runs {mint account authority : Pubkey} {amount : Nat} :
    Runs (b.mintToChecked mint account authority amount) := by
  simp [-bind_pure_comp, Bank.mintToChecked, Bank.mint, Bank.account]

@[simp] theorem Bank.initializeAccount_runs {account mint owner : Pubkey} :
    Runs (b.initializeAccount account mint owner) := by
  simp [-bind_pure_comp, Bank.initializeAccount, Bank.mint]

@[simp] theorem Bank.initializeMint_runs {mint : Pubkey} {program : TokenProgram} {authority : Option Pubkey}
    {decimals : Nat} {freezeAuthority : Option Pubkey} {extensions : List ExtensionType} :
    Runs (b.initializeMint mint program authority decimals freezeAuthority extensions) := by
  simp [-bind_pure_comp, Bank.initializeMint]

@[simp] theorem Bank.setMintAuthority_runs {mint authority : Pubkey} {newAuthority : Option Pubkey} :
    Runs (b.setMintAuthority mint authority newAuthority) := by
  simp [-bind_pure_comp, Bank.setMintAuthority, Bank.mint]

@[simp] theorem Bank.closeAccount_runs {account authority : Pubkey} : Runs (b.closeAccount account authority) := by
  simp [-bind_pure_comp, Bank.closeAccount, Bank.account]

@[simp] theorem Bank.initAssociatedIfNeeded_runs {account mint authority : Pubkey} :
    Runs (b.initAssociatedIfNeeded account mint authority) := by
  simp only [Bank.initAssociatedIfNeeded]
  refine runs_bind.mpr ⟨by simp, fun _ _ => ?_⟩
  split <;> simp [-bind_pure_comp]

theorem Bank.execute_runs (i : TokenInstruction) : Runs (b.execute i) := by
  cases i <;> simp [-bind_pure_comp, Bank.execute, Bank.approve, Bank.revoke, Bank.setAccountOwner,
    Bank.setCloseAuthority, Bank.account]

/-- No account constraint aborts. -/
theorem Error.OfAnchor.runs {α : Type} {x : Result α} (fails : FailsWith Error.OfAnchor x) : Runs x := by
  intro aborted
  obtain ⟨_, anchor⟩ := fails _ aborted
  cases anchor

@[simp] theorem Chain.vaultAt_runs {vaultState depositMint : Pubkey} : Runs (c.vaultAt vaultState depositMint) :=
  Error.OfAnchor.runs Chain.vaultAt_fails

@[simp] theorem Chain.tokenAccount_runs {account mint authority : Pubkey} :
    Runs (c.tokenAccount account mint authority) := Error.OfAnchor.runs Chain.tokenAccount_fails

@[simp] theorem Chain.associatedAccount_runs {account mint authority : Pubkey} :
    Runs (c.associatedAccount account mint authority) := Error.OfAnchor.runs Chain.associatedAccount_fails

@[simp] theorem Chain.reserveAt_runs {account vaultState depositMint : Pubkey} {vaultVersion : Nat} :
    Runs (c.reserveAt account vaultState depositMint vaultVersion) := Error.OfAnchor.runs Chain.reserveAt_fails

@[simp] theorem Chain.shareMintAt_runs {shareMint vaultState depositMint : Pubkey} {vaultVersion : Nat} :
    Runs (c.shareMintAt shareMint vaultState depositMint vaultVersion) := Error.OfAnchor.runs Chain.shareMintAt_fails

@[simp] theorem Chain.sameDecimals_runs {shareMint depositMint : Pubkey} :
    Runs (c.sameDecimals shareMint depositMint) := Error.OfAnchor.runs Chain.sameDecimals_fails

@[simp] theorem Chain.subaccountAt_runs {subaccount vaultState : Pubkey} :
    Runs (c.subaccountAt subaccount vaultState) := by
  simp [-bind_pure_comp, Chain.subaccountAt]

@[simp] theorem Chain.queueAt_runs {queue : Pubkey} : Runs (c.queueAt queue) :=
  Error.OfAnchor.runs Chain.queueAt_fails

@[simp] theorem Chain.queueOfVault_runs {queue vaultState : Pubkey} : Runs (c.queueOfVault queue vaultState) := by
  simp [-bind_pure_comp, Chain.queueOfVault]

@[simp] theorem Chain.requestAt_runs {request queue : Pubkey} : Runs (c.requestAt request queue) := by
  simp [-bind_pure_comp, Chain.requestAt]

end Accounts

section Handlers
variable {c : Chain}

theorem Deposit.runs (a : Deposit) (amount minSharesOut : Nat) :
    Runs (Deposit.handlerChecked c a amount minSharesOut) := by
  have shares : ∀ {supply total amount offset},
      Runs (VaultState.sharesForDepositWithOffset supply total amount offset) := by
    intro supply total amount offset
    unfold VaultState.sharesForDepositWithOffset
    split <;> simp [-bind_pure_comp]
  simp [-bind_pure_comp, Deposit.handlerChecked, Deposit.accounts, VaultState.totalAssets,
    VaultState.sharesForDeposit, shares]

theorem Redeem.runs (a : Redeem) (shares minAssetsOut : Nat) :
    Runs (Redeem.handlerChecked c a shares minAssetsOut) := by
  have assets : ∀ {supply total shares offset},
      Runs (VaultState.assetsForRedeemWithOffset supply total shares offset) := by
    intro supply total shares offset
    unfold VaultState.assetsForRedeemWithOffset
    split <;> simp [-bind_pure_comp]
  simp [-bind_pure_comp, Redeem.handlerChecked, Redeem.accounts, Redeem.interactions, Redeem.fees,
    VaultState.totalAssets, VaultState.assetsForRedeem, assets]

theorem ShareTokenMetadata.runs (a : ShareTokenMetadata) (program : MetadataProgram) (call : MetadataCall) :
    Runs (a.invoke c program call) := by
  have answered : Runs (call.invoke program) := by
    unfold MetadataCall.invoke
    split
    · exact pure_ne_error
    · exact fun aborted => by cases aborted
  simp [-bind_pure_comp, ShareTokenMetadata.invoke, ShareTokenMetadata.accounts, answered]

theorem VaultAdmin.update_runs {a : VaultAdmin} {change : VaultState → Result VaultState}
    (runs : ∀ v, Runs (change v)) : Runs (a.update c change) := by
  simp [-bind_pure_comp, VaultAdmin.update, VaultAdmin.accounts, runs]

theorem QueueAdmin.update_runs {a : QueueAdmin} {change : WithdrawalQueue → Result WithdrawalQueue}
    (runs : ∀ q, Runs (change q)) : Runs (a.update c change) := by
  simp [-bind_pure_comp, QueueAdmin.update, requireVaultAdmin, runs]

@[simp] theorem WithdrawalQueue.setCooldown_runs {q : WithdrawalQueue} {seconds : Nat} :
    Runs (q.setCooldown seconds) := by
  simp [-bind_pure_comp, WithdrawalQueue.setCooldown]

theorem WithdrawalRequest.schedule_runs {r : WithdrawalRequest} {now : Int} {cooldownSeconds windowSeconds : Nat} :
    Runs (r.schedule now cooldownSeconds windowSeconds) := by
  unfold WithdrawalRequest.schedule
  split <;> simp [-bind_pure_comp, secs, addSeconds]

theorem FinalizeWithdrawal.runs (a : FinalizeWithdrawal) (expectedSequence : Nat) :
    Runs (FinalizeWithdrawal.handler c a expectedSequence) := by
  have redeem : ∀ shares, Runs (Redeem.handler c a.redeem shares) := fun shares => Redeem.runs a.redeem shares 0
  simp [-bind_pure_comp, FinalizeWithdrawal.handler, FinalizeWithdrawal.accounts, FinalizeWithdrawal.payout,
    requireValidRecipient, WithdrawalQueue.closeRequest, redeem]

/-- Instructions of the queue program never abort. -/
theorem QueueInstruction.runs (i : QueueInstruction) : Runs (c.executeQueue i) := by
  cases i with
  | initializeQueue =>
    simp [-bind_pure_comp, Chain.executeQueue, InitializeQueue.handler, requireSupportedDepositMint,
      requireSupportedShareMint, WithdrawalQueue.init]
  | setCooldown a seconds =>
    show Runs (SetCooldown.handler c a seconds.toNat)
    exact QueueAdmin.update_runs fun q => WithdrawalQueue.setCooldown_runs
  | setFulfillmentWindow a seconds =>
    show Runs (SetFulfillmentWindow.handler c a seconds.toNat)
    refine QueueAdmin.update_runs fun q => ?_
    simp [-bind_pure_comp, WithdrawalQueue.setFulfillmentWindow]
  | requestWithdrawal =>
    simp [-bind_pure_comp, Chain.executeQueue, RequestWithdrawal.handler, requireValidRecipient,
      WithdrawalQueue.openRequest, WithdrawalRequest.open, WithdrawalRequest.schedule_runs]
  | finalizeWithdrawal a expectedSequence => exact FinalizeWithdrawal.runs a expectedSequence.toNat
  | cancelWithdrawal =>
    simp [-bind_pure_comp, Chain.executeQueue, CancelWithdrawal.handler, WithdrawalQueue.closeRequest]
  | releaseVault =>
    simp [-bind_pure_comp, Chain.executeQueue, ReleaseVault.handler, requireVaultAdmin, DetachWithdrawalQueue.handler,
      VaultAdmin.update_runs]
  | sweepEscrowShares =>
    simp [-bind_pure_comp, Chain.executeQueue, SweepEscrowShares.handler, requireVaultAdmin]
  | expediteRequest =>
    simp [-bind_pure_comp, Chain.executeQueue, ExpediteRequest.handler, requireVaultAdminOrOperator, expediteOne]

/-- The overflows that are left: of the reported assets in an operator withdrawal that passes every check and is
paid, of the validity of a nomination, and a clock out of range. -/
def Chain.Aborts (c : Chain) : Instruction → Prop
  | .vault (.operatorWithdraw a amount) => ∃ v dest entry paid, a.accounts c = .ok (v, dest, entry) ∧
      0 < amount.toNat ∧ v.requiresSubaccount = entry.isSome ∧
        (∀ s ∈ entry, dest.delegate = some a.vaultState ∧
          min (s.principal + amount.toNat) u64Max ≤ dest.delegatedAmount) ∧
            c.bank.transferChecked a.vaultDepositAta a.depositMint a.operatorTokenAccount a.vaultState amount.toNat =
              .ok paid ∧ u64Max < v.deployedAum + amount.toNat
  | .vault (.nominateAdmin a nominatedAdminPda _) => ∃ v, a.accounts c = .ok v ∧
      nominatedAdminPda = .nominatedAdmin a.depositMint v.vaultVersion ∧ i64Max < c.clock + 24 * 60 * 60
  | .clock now => ¬(i64Min ≤ now ∧ now ≤ i64Max)
  | _ => False

theorem OperatorTransfer.accounts_runs (a : OperatorTransfer) : Runs (a.accounts c) := by
  intro aborted
  rcases OperatorTransfer.accounts_fails _ aborted with ⟨_, anchor⟩ | other
  · cases anchor
  · cases other

theorem OperatorWithdraw.handler_aborts (a : OperatorTransfer) (amount : UInt64) :
    OperatorWithdraw.handler c a amount.toNat = .error .arithmetic ↔
      c.Aborts (.vault (.operatorWithdraw a amount)) := by
  have accounts : a.accounts c ≠ .error .arithmetic := OperatorTransfer.accounts_runs a
  have paying : c.bank.transferChecked a.vaultDepositAta a.depositMint a.operatorTokenAccount a.vaultState
    amount.toNat ≠ .error .arithmetic := Bank.transfer_runs
  have deploys : ∀ entry, a.deploy c entry amount.toNat ≠ .error .arithmetic := by
    intro entry
    cases entry with
    | none => exact pure_ne_error
    | some s => simp [-bind_pure_comp, OperatorTransfer.deploy]
  simp only [OperatorWithdraw.handler, Chain.Aborts, bind_eq_error, Prod.exists, require_eq_error, okOr_eq_error,
    require_eq_ok, checkedAdd_eq_none, takenOff_eq, accounts, paying, deploys, pure_ne_error, reduceCtorEq, and_false,
    and_true, false_or, or_false, exists_false, exists_const, Except.ok.injEq, exists_eq_left']
  constructor
  · rintro ⟨v, dest, entry, found, positive, registry, delegation, paid, pays, overflow⟩
    exact ⟨v, dest, entry, paid, found, positive, registry, delegation, pays, overflow⟩
  · rintro ⟨v, dest, entry, paid, found, positive, registry, delegation, pays, overflow⟩
    exact ⟨v, dest, entry, found, positive, registry, delegation, paid, pays, overflow⟩

theorem NominateAdmin.handler_aborts (a : VaultAdmin) (pda nominee : Pubkey) :
    NominateAdmin.handler c a pda nominee = .error .arithmetic ↔
      c.Aborts (.vault (.nominateAdmin a pda nominee)) := by
  have accounts : a.accounts c ≠ .error .arithmetic := by
    show Runs (a.accounts c)
    simp [-bind_pure_comp, VaultAdmin.accounts]
  simp only [NominateAdmin.handler, NominatedAdmin.init, Chain.Aborts, bind_eq_error, require_eq_error, require_eq_ok,
    accounts, pure_ne_error, reduceCtorEq, and_false, and_true, false_or, or_false, exists_false, exists_const,
    not_le]

theorem OperatorUpdateAum.runs (reach : Reachable c) (a : OperatorUpdateAum) (newAum : UInt64) :
    Runs (OperatorUpdateAum.handler c a newAum.toNat) := by
  refine runs_bind.mpr ⟨Chain.vaultAt_runs, fun v found => ?_⟩
  have sound := reach.vaults_sound _ v (Chain.vaultAt_eq_ok.mp found).1
  have decrease : v.aumDecreaseLimit ≤ bpsDenominator := sound.formed.decrease
  have increase : v.aumIncreaseLimit ≤ bpsDenominator := sound.formed.increase
  have word : newAum.toNat ≤ u64Max := Nat.le_of_lt_succ newAum.toNat_lt
  have limit : bpsDenominator + v.aumIncreaseLimit ≤ u32Max := (Nat.add_le_add_left increase _).trans (by decide)
  have scaled : newAum.toNat * bpsDenominator ≤ u128Max := (Nat.mul_le_mul_right _ word).trans (by decide)
  have lower : (bpsDenominator - v.aumDecreaseLimit) * v.deployedAum ≤ u128Max :=
    (Nat.mul_le_mul (Nat.sub_le _ _) sound.deployed).trans (by decide)
  have upper : (bpsDenominator + v.aumIncreaseLimit) * v.deployedAum ≤ u128Max :=
    (Nat.mul_le_mul (Nat.add_le_add_left increase _) sound.deployed).trans (by decide)
  simp [-bind_pure_comp, checkedSub_eq_some.mpr ⟨decrease, rfl⟩, checkedAdd_eq_some.mpr ⟨limit, rfl⟩,
    checkedMul_eq_some.mpr ⟨scaled, rfl⟩, checkedMul_eq_some.mpr ⟨lower, rfl⟩,
    checkedMul_eq_some.mpr ⟨upper, rfl⟩]

theorem OperatorDeposit.runs (reach : Reachable c) {a : OperatorTransfer} (signs : a.operator.canSign = true)
    (amount : UInt64) : Runs (OperatorDeposit.handler c a amount.toNat) := by
  cases vault : c.vaults.lookup a.vaultState with
  | none =>
    -- The accounts are refused.
    refine runs_bind.mpr ⟨OperatorTransfer.accounts_runs a, fun found accounts => ?_⟩
    obtain ⟨v, source, entry⟩ := found
    cases vault.symm.trans (OperatorTransfer.accounts_eq_ok accounts).vault
  | some v =>
    intro aborted
    refine (reach.vaults_sound _ v vault).restores vault a amount rfl .arithmetic ?_ rfl
    simp only [Chain.process, Instruction.signers, VaultInstruction.signers, List.all_cons, List.all_nil, signs,
      Bool.and_self, require_pos, ok_bind]
    exact aborted

/-- The amount written down is at most the shortfall, hence at most the principal. -/
theorem SettleSubaccountLoss.runs (a : SubaccountAdmin) (amount : Nat) :
    Runs (SettleSubaccountLoss.handler c a amount) := by
  refine runs_bind.mpr ⟨Chain.vaultAt_runs, fun v _ => runs_bind.mpr ⟨Chain.subaccountAt_runs, fun s _ => ?_⟩⟩
  refine runs_bind.mpr ⟨by simp, fun _ _ => runs_bind.mpr ⟨Chain.associatedAccount_runs, fun t _ => ?_⟩⟩
  refine runs_bind.mpr ⟨by simp, fun _ _ => runs_bind.mpr ⟨by simp, fun _ _ => ?_⟩⟩
  refine runs_bind.mpr ⟨by simp, fun _ shortfall => ?_⟩
  have covered : amount ≤ s.principal := (require_eq_ok.mp shortfall).trans (Nat.sub_le _ _)
  simp [-bind_pure_comp, checkedSub_eq_some.mpr ⟨covered, rfl⟩]

theorem VaultInstruction.execute_aborts (reach : Reachable c) {i : VaultInstruction}
    (signed : i.signers.all Pubkey.canSign = true) :
    c.executeVault i = .error .arithmetic ↔ c.Aborts (.vault i) := by
  have never : ∀ {x : Result Chain}, Runs x → (x = .error .arithmetic ↔ False) := fun runs => iff_false_intro runs
  cases i with
  | operatorWithdraw a amount => exact OperatorWithdraw.handler_aborts a amount
  | nominateAdmin a pda nominee => exact NominateAdmin.handler_aborts a pda nominee
  | deposit a amount => exact never (Deposit.runs a amount.toNat 0)
  | depositChecked a amount minSharesOut => exact never (Deposit.runs a amount.toNat minSharesOut.toNat)
  | redeem a shares => exact never (Redeem.runs a shares.toNat 0)
  | redeemChecked a shares minAssetsOut => exact never (Redeem.runs a shares.toNat minAssetsOut.toNat)
  | operatorDeposit a amount =>
    exact never (OperatorDeposit.runs reach (List.all_eq_true.mp signed _ List.mem_cons_self) amount)
  | operatorUpdateAum a newAum => exact never (OperatorUpdateAum.runs reach a newAum)
  | initializeConfig =>
    refine never ?_
    simp [-bind_pure_comp, Chain.executeVault, InitializeConfig.handler]
  | setConfigAuthority =>
    refine never ?_
    simp [-bind_pure_comp, Chain.executeVault, SetConfigAuthority.handler]
  | overrideConfigAuthority =>
    refine never ?_
    simp [-bind_pure_comp, Chain.executeVault, OverrideConfigAuthority.handler]
  | initializeVault =>
    refine never ?_
    simp [-bind_pure_comp, Chain.executeVault, Initialize.handler]
  | registerSubaccount =>
    refine never ?_
    simp [-bind_pure_comp, Chain.executeVault, RegisterSubaccount.handler]
  | settleSubaccountLoss a amount => exact never (SettleSubaccountLoss.runs a amount.toNat)
  | deregisterSubaccount =>
    refine never ?_
    simp [-bind_pure_comp, Chain.executeVault, DeregisterSubaccount.handler]
  | acceptAdminNomination =>
    refine never ?_
    simp [-bind_pure_comp, Chain.executeVault, AcceptAdminNomination.handler, NominatedAdmin.validAcceptNomination]
  | setWithdrawalFee | setOperator | setFeeRecipient | setAumLimits | pause | unpause | attachWithdrawalQueue
  | detachWithdrawalQueue =>
    refine never (VaultAdmin.update_runs fun v => ?_)
    simp [-bind_pure_comp]
  | closeVault =>
    refine never ?_
    simp [-bind_pure_comp, Chain.executeVault, CloseVault.handler]
  | createShareTokenMetadata a | updateShareTokenMetadata a => exact never (ShareTokenMetadata.runs a _ _)

/-- A transaction of a reachable chain aborts in an unchecked operation exactly in the cases listed. -/
theorem Reachable.aborts_iff (reach : Reachable c) (i : Instruction) :
    c.process i = .error .arithmetic ↔ i.signers.all Pubkey.canSign = true ∧ c.Aborts i := by
  have refused :
      require (i.signers.all Pubkey.canSign = true) (Error.anchor .accountNotSigner) ≠ .error .arithmetic :=
    runs_require.mpr fun _ => Error.noConfusion
  simp only [Chain.process, bind_eq_error, refused, false_or, require_eq_ok, exists_const]
  refine and_congr_right fun signed => ?_
  cases i with
  | vault i => exact VaultInstruction.execute_aborts reach signed
  | queue i => exact iff_false_intro (QueueInstruction.runs i)
  | token i =>
    refine iff_false_intro ?_
    show Runs (Chain.execute c (.token i))
    simp [-bind_pure_comp, Chain.execute, Bank.execute_runs]
  | clock now =>
    simp only [Chain.execute, Chain.Aborts, bind_eq_error, require_eq_error, and_true, pure_ne_error, and_false,
      exists_false, or_false]
  | setUpgradeAuthority => exact iff_false_intro pure_ne_error

end Handlers

open Sample in
/-- Where the reports have used up the range of the deployed assets, the last token in the reserve stays there. -/
theorem swollen_aborts :
    swollen.refusal (.vault (.operatorWithdraw deploying 1)) = some .arithmetic ∧
      swollen.Aborts (.vault (.operatorWithdraw deploying 1)) := by
  have refused : swollen.refusal (.vault (.operatorWithdraw deploying 1)) = some .arithmetic := by decide +kernel
  have aborted :=
    Chain.refusal_satisfies (P := fun e => swollen.process _ = .error e) (fun _ failed => failed) refused
  exact ⟨refused, (Reachable.aborts_iff (Chain.runAll_reachable (some admin) swelling) _).mp aborted |>.2⟩

end Upshift
