import Upshift.Moves
import Upshift.Queue.Custody

namespace Upshift
open Guard KeyedStore History

/-- Where data lives: at an address, in the clock, or in the program data of the vault program. -/
inductive Place
  | account (k : Pubkey)
  | clock
  | upgradeAuthority
  deriving DecidableEq

inductive Content
  | account (mint : Option Mint) (token : Option TokenAccount) (vault : Option VaultState)
      (subaccount : Option Subaccount) (nomination : Option NominatedAdmin) (config : Option ProgramConfig)
      (queue : Option WithdrawalQueue) (request : Option WithdrawalRequest)
  | clock (now : Int)
  | upgradeAuthority (authority : Option Pubkey)

/-- The data of the chain at a place. -/
def Chain.content (c : Chain) : Place → Content
  | .account k =>
    .account (c.bank.mints.lookup k) (c.bank.accounts.lookup k) (c.vaults.lookup k) (c.subaccounts.lookup k)
      (c.nominations.lookup k) (if k = .programConfig then c.config else none) (c.queues.lookup k)
      (c.requests.lookup k)
  | .clock => .clock c.clock
  | .upgradeAuthority => .upgradeAuthority c.upgradeAuthority

/-- The accounts an instruction is given. Signers, payers and the receivers of rent hold nothing modelled, and are
left out, as are programs. -/
def VaultInstruction.accounts : VaultInstruction → List Pubkey
  | .initializeConfig .. | .setConfigAuthority .. | .overrideConfigAuthority .. => [.programConfig]
  | .initializeVault a _ _ _ _ _ => [.programConfig, a.depositMint, a.vaultState, a.shareMint, a.vaultTokenAta]
  | .deposit a _ | .depositChecked a _ _ =>
    [a.vaultState, a.vaultTokenAta, a.senderTokenAccount, a.senderShareAccount, a.shareMint, a.depositMint]
  | .redeem a _ | .redeemChecked a _ _ =>
    [a.vaultState, a.vaultDepositAta, a.senderTokenAccount, a.senderShareAccount, a.feeRecipientAccount, a.shareMint,
      a.depositMint]
  | .operatorWithdraw a _ | .operatorDeposit a _ =>
    [a.vaultState, a.vaultDepositAta, a.operatorTokenAccount, a.depositMint] ++ a.subaccount.toList
  | .operatorUpdateAum a _ => [a.vaultState, a.depositMint]
  | .registerSubaccount a _ | .settleSubaccountLoss a _ =>
    [a.vaultState, a.subaccount, a.depositMint, a.subaccountAta]
  | .deregisterSubaccount a => [a.vaultState, a.subaccount, a.depositMint]
  | .nominateAdmin a nominatedAdminPda _ => [a.vaultState, a.depositMint, nominatedAdminPda]
  | .acceptAdminNomination a => [a.vaultState, a.depositMint, a.nominatedAdminPda]
  | .setWithdrawalFee a _ | .setOperator a _ | .setFeeRecipient a _ | .setAumLimits a _ _ | .pause a | .unpause a =>
    [a.vaultState, a.depositMint]
  | .attachWithdrawalQueue a queue | .detachWithdrawalQueue a queue => [a.vaultState, a.depositMint, queue]
  | .closeVault a => [a.vaultState, a.shareMint, a.vaultTokenAta, a.depositMint]
  | .createShareTokenMetadata a _ _ _ | .updateShareTokenMetadata a _ _ =>
    [a.vaultState, a.depositMint, a.shareMint, a.metadataAccount]

/-- The accounts under `mut`, `init`, `init_if_needed` or `close`. -/
def VaultInstruction.writable : VaultInstruction → List Pubkey
  | .initializeConfig .. | .setConfigAuthority .. | .overrideConfigAuthority .. => [.programConfig]
  | .initializeVault a _ _ _ _ _ => [a.vaultState, a.shareMint, a.vaultTokenAta]
  | .deposit a _ | .depositChecked a _ _ =>
    [a.vaultState, a.vaultTokenAta, a.senderTokenAccount, a.senderShareAccount, a.shareMint]
  | .redeem a _ | .redeemChecked a _ _ =>
    [a.vaultState, a.vaultDepositAta, a.senderTokenAccount, a.senderShareAccount, a.feeRecipientAccount, a.shareMint]
  | .operatorWithdraw a _ | .operatorDeposit a _ =>
    [a.vaultState, a.vaultDepositAta, a.operatorTokenAccount] ++ a.subaccount.toList
  | .operatorUpdateAum a _ => [a.vaultState]
  | .registerSubaccount a _ | .settleSubaccountLoss a _ => [a.vaultState, a.subaccount]
  | .deregisterSubaccount a => [a.vaultState, a.subaccount]
  | .nominateAdmin _ nominatedAdminPda _ => [nominatedAdminPda]
  | .acceptAdminNomination a => [a.vaultState, a.nominatedAdminPda]
  | .setWithdrawalFee a _ | .setOperator a _ | .setFeeRecipient a _ | .setAumLimits a _ _ | .pause a | .unpause a =>
    [a.vaultState]
  | .attachWithdrawalQueue a _ | .detachWithdrawalQueue a _ => [a.vaultState]
  | .closeVault a => [a.vaultState, a.shareMint, a.vaultTokenAta]
  | .createShareTokenMetadata a _ _ _ | .updateShareTokenMetadata a _ _ => [a.metadataAccount]

/-- What an instruction looks at beside its accounts. -/
def VaultInstruction.surroundings : VaultInstruction → List Place
  | .initializeConfig .. | .overrideConfigAuthority .. => [.upgradeAuthority]
  | .nominateAdmin .. | .acceptAdminNomination .. => [.clock]
  | _ => []

def QueueInstruction.accounts : QueueInstruction → List Pubkey
  | .initializeQueue a _ => [a.vaultState, a.depositMint, a.shareMint, a.queue, a.escrowShares, a.escrowAssets]
  | .setCooldown a _ | .setFulfillmentWindow a _ => [a.queue, a.vaultState]
  | .requestWithdrawal a _ _ _ _ =>
    [a.queue, a.vaultState, a.ownerShareAccount, a.escrowShares, a.shareMint, a.recipientTokenAccount, a.request]
  | .finalizeWithdrawal a _ =>
    [a.queue, a.vaultState, a.vaultDepositAta, a.feeRecipientAccount, a.escrowShares, a.escrowAssets, a.shareMint,
      a.depositMint, a.request, a.recipientTokenAccount]
  | .cancelWithdrawal a _ => [a.queue, a.request, a.escrowShares, a.shareMint, a.destinationShareAccount]
  | .releaseVault a => [a.queue, a.vaultState, a.depositMint]
  | .sweepEscrowShares a => [a.queue, a.vaultState, a.escrowShares, a.shareMint, a.destination]
  | .expediteRequest a _ => [a.queue, a.vaultState, a.request]

def QueueInstruction.writable : QueueInstruction → List Pubkey
  | .initializeQueue a _ => [a.queue, a.escrowShares, a.escrowAssets]
  | .setCooldown a _ | .setFulfillmentWindow a _ => [a.queue]
  | .requestWithdrawal a _ _ _ _ => [a.queue, a.ownerShareAccount, a.escrowShares, a.request]
  | .finalizeWithdrawal a _ =>
    [a.queue, a.vaultState, a.vaultDepositAta, a.feeRecipientAccount, a.escrowShares, a.escrowAssets, a.shareMint,
      a.request, a.recipientTokenAccount]
  | .cancelWithdrawal a _ => [a.queue, a.request, a.escrowShares, a.destinationShareAccount]
  | .releaseVault a => [a.vaultState]
  | .sweepEscrowShares a => [a.escrowShares, a.destination]
  | .expediteRequest a _ => [a.request]

def QueueInstruction.surroundings : QueueInstruction → List Place
  | .requestWithdrawal .. | .finalizeWithdrawal .. | .expediteRequest .. => [.clock]
  | _ => []

def TokenInstruction.accounts : TokenInstruction → List Pubkey
  | .transfer source mint destination _ _ => [source, mint, destination]
  | .mintTo mint account _ _ | .burn account mint _ _ => [mint, account]
  | .approve source _ _ _ | .revoke source _ => [source]
  | .setAccountOwner account _ _ | .setCloseAuthority account _ _ | .closeAccount account _ => [account]
  | .setMintAuthority mint _ _ | .initializeMint mint _ _ _ _ _ => [mint]
  | .createAssociatedAccount owner mint => [.associatedToken owner mint, mint]
  | .initializeAccount account mint _ => [account, mint]

def TokenInstruction.writable : TokenInstruction → List Pubkey
  | .transfer source _ destination _ _ => [source, destination]
  | .mintTo mint account _ _ | .burn account mint _ _ => [mint, account]
  | .approve source _ _ _ | .revoke source _ => [source]
  | .setAccountOwner account _ _ | .setCloseAuthority account _ _ | .closeAccount account _ => [account]
  | .setMintAuthority mint _ _ | .initializeMint mint _ _ _ _ _ => [mint]
  | .createAssociatedAccount owner mint => [.associatedToken owner mint]
  | .initializeAccount account _ _ => [account]

/-- The places an instruction can look at. -/
def Instruction.reads : Instruction → List Place
  | .vault i => i.surroundings ++ i.accounts.map .account
  | .queue i => i.surroundings ++ i.accounts.map .account
  | .token i => i.accounts.map .account
  | .clock _ => [.clock]
  | .setUpgradeAuthority _ => [.upgradeAuthority]

/-- The places an instruction declares it may change. -/
def Instruction.writes : Instruction → List Place
  | .vault i => i.writable.map .account
  | .queue i => i.writable.map .account
  | .token i => i.writable.map .account
  | .clock _ => [.clock]
  | .setUpgradeAuthority _ => [.upgradeAuthority]

section Bank
variable {b b' b'' : Bank} {k : Pubkey}

/-- Nothing happens at an address of the token program. -/
structure Bank.SameAt (b b' : Bank) (k : Pubkey) : Prop where
  mint : b'.mints.lookup k = b.mints.lookup k
  account : b'.accounts.lookup k = b.accounts.lookup k

theorem Bank.SameAt.refl (b : Bank) (k : Pubkey) : b.SameAt b k := ⟨rfl, rfl⟩

theorem Bank.SameAt.trans (first : b.SameAt b' k) (second : b'.SameAt b'' k) : b.SameAt b'' k :=
  ⟨second.mint.trans first.mint, second.account.trans first.account⟩

theorem Bank.transfer_sameAt {source mint destination authority : Pubkey} {amount : Nat}
    (ran : b.transferChecked source mint destination authority amount = .ok b') (away : k ≠ source)
    (away' : k ≠ destination) : b.SameAt b' k := by
  obtain ⟨_, _, _, _, _, _, _, _, _, _, _, outcome⟩ := Bank.transferChecked_eq_ok.mp ran
  rcases outcome with ⟨_, rfl⟩ | ⟨_, _, rfl⟩
  · exact .refl _ _
  · refine ⟨rfl, ?_⟩
    rw [Finmap.lookup_insert_of_ne _ away', Finmap.lookup_insert_of_ne _ away]

theorem Bank.mintTo_sameAt {mint account authority : Pubkey} {amount : Nat}
    (ran : b.mintToChecked mint account authority amount = .ok b') (away : k ≠ mint) (away' : k ≠ account) :
    b.SameAt b' k := by
  obtain ⟨_, _, _, _, _, _, _, _, rfl⟩ := Bank.mintToChecked_eq_ok.mp ran
  exact ⟨Finmap.lookup_insert_of_ne _ away, Finmap.lookup_insert_of_ne _ away'⟩

theorem Bank.burn_sameAt {account mint authority : Pubkey} {amount : Nat}
    (ran : b.burnChecked account mint authority amount = .ok b') (away : k ≠ mint) (away' : k ≠ account) :
    b.SameAt b' k := by
  obtain ⟨_, _, _, _, _, _, _, _, _, rfl⟩ := Bank.burnChecked_eq_ok.mp ran
  exact ⟨Finmap.lookup_insert_of_ne _ away, Finmap.lookup_insert_of_ne _ away'⟩

theorem Bank.closeAccount_sameAt {account owner : Pubkey} (ran : b.closeAccount account owner = .ok b')
    (away : k ≠ account) : b.SameAt b' k := by
  obtain ⟨_, _, _, _, rfl⟩ := Bank.closeAccount_eq_ok.mp ran
  exact ⟨rfl, Finmap.lookup_erase_ne away⟩

theorem Bank.setMintAuthority_sameAt {mint authority : Pubkey} {newAuthority : Option Pubkey}
    (ran : b.setMintAuthority mint authority newAuthority = .ok b') (away : k ≠ mint) : b.SameAt b' k := by
  obtain ⟨_, _, _, rfl⟩ := Bank.setMintAuthority_eq_ok.mp ran
  exact ⟨Finmap.lookup_insert_of_ne _ away, rfl⟩

theorem Bank.initializeAccount_sameAt {account mint owner : Pubkey}
    (ran : b.initializeAccount account mint owner = .ok b') (away : k ≠ account) : b.SameAt b' k := by
  obtain ⟨_, _, rfl⟩ := Bank.initializeAccount_eq_ok.mp ran
  exact ⟨rfl, Finmap.lookup_insert_of_ne _ away⟩

theorem Bank.initializeMint_sameAt {mint : Pubkey} {program : TokenProgram} {authority : Option Pubkey}
    {decimals : Nat} {freezeAuthority : Option Pubkey} {extensions : List ExtensionType}
    (ran : b.initializeMint mint program authority decimals freezeAuthority extensions = .ok b') (away : k ≠ mint) :
    b.SameAt b' k := by
  obtain ⟨_, rfl⟩ := Bank.initializeMint_eq_ok.mp ran
  exact ⟨Finmap.lookup_insert_of_ne _ away, rfl⟩

theorem Bank.initAssociatedIfNeeded_sameAt {account mint authority : Pubkey}
    (ran : b.initAssociatedIfNeeded account mint authority = .ok b') (away : k ≠ account) : b.SameAt b' k := by
  obtain ⟨_, created | ⟨rfl, _⟩⟩ := Bank.initAssociatedIfNeeded_eq_ok ran
  · exact Bank.initializeAccount_sameAt created away
  · exact .refl _ _

theorem Redeem.interactions_sameAt {a : Redeem} {shares fees finalAmount : Nat}
    (ran : a.interactions b shares fees finalAmount = .ok b') (share : k ≠ a.senderShareAccount)
    (shareMint : k ≠ a.shareMint) (reserve : k ≠ a.vaultDepositAta) (fee : k ≠ a.feeRecipientAccount)
    (token : k ≠ a.senderTokenAccount) : b.SameAt b' k := by
  obtain ⟨burned, paidFee, burns, paysFee, pays⟩ := Redeem.interactions_eq_ok.mp ran
  have first := Bank.burn_sameAt burns shareMint share
  exact (first.trans (Bank.transfer_sameAt paysFee reserve fee)).trans (Bank.transfer_sameAt pays reserve token)

theorem Bank.execute_sameAt {i : TokenInstruction} (ran : b.execute i = .ok b') (away : k ∉ i.writable) :
    b.SameAt b' k := by
  cases i with
  | transfer =>
    simp only [TokenInstruction.writable, List.mem_cons, List.not_mem_nil, or_false, not_or] at away
    exact Bank.transfer_sameAt ran away.1 away.2
  | mintTo =>
    simp only [TokenInstruction.writable, List.mem_cons, List.not_mem_nil, or_false, not_or] at away
    exact Bank.mintTo_sameAt ran away.1 away.2
  | burn =>
    simp only [TokenInstruction.writable, List.mem_cons, List.not_mem_nil, or_false, not_or] at away
    exact Bank.burn_sameAt ran away.1 away.2
  | approve =>
    obtain ⟨_, _, _, rfl⟩ := Bank.approve_eq_ok.mp ran
    exact ⟨rfl, Finmap.lookup_insert_of_ne _ (List.ne_of_not_mem_cons away)⟩
  | revoke =>
    obtain ⟨_, _, _, rfl⟩ := Bank.revoke_eq_ok.mp ran
    exact ⟨rfl, Finmap.lookup_insert_of_ne _ (List.ne_of_not_mem_cons away)⟩
  | setAccountOwner =>
    obtain ⟨_, _, _, rfl⟩ := Bank.setAccountOwner_eq_ok.mp ran
    exact ⟨rfl, Finmap.lookup_insert_of_ne _ (List.ne_of_not_mem_cons away)⟩
  | setCloseAuthority =>
    obtain ⟨_, _, _, rfl⟩ := Bank.setCloseAuthority_eq_ok.mp ran
    exact ⟨rfl, Finmap.lookup_insert_of_ne _ (List.ne_of_not_mem_cons away)⟩
  | setMintAuthority => exact Bank.setMintAuthority_sameAt ran (List.ne_of_not_mem_cons away)
  | closeAccount => exact Bank.closeAccount_sameAt ran (List.ne_of_not_mem_cons away)
  | createAssociatedAccount | initializeAccount =>
    exact Bank.initializeAccount_sameAt ran (List.ne_of_not_mem_cons away)
  | initializeMint => exact Bank.initializeMint_sameAt ran (List.ne_of_not_mem_cons away)

end Bank

section Chain
variable {c c' : Chain} {k : Pubkey}

/-- Nothing happens at an address. -/
structure Chain.SameAt (c c' : Chain) (k : Pubkey) : Prop where
  bank : c.bank.SameAt c'.bank k := by exact .refl _ _
  vault : c'.vaults.lookup k = c.vaults.lookup k := by rfl
  subaccount : c'.subaccounts.lookup k = c.subaccounts.lookup k := by rfl
  nomination : c'.nominations.lookup k = c.nominations.lookup k := by rfl
  config : k = .programConfig → c'.config = c.config := by exact fun _ => rfl
  queue : c'.queues.lookup k = c.queues.lookup k := by rfl
  request : c'.requests.lookup k = c.requests.lookup k := by rfl

/-- Nothing happens but at the given addresses. -/
structure Chain.Frame (c c' : Chain) (writable : List Pubkey) : Prop where
  away : ∀ k ∉ writable, c.SameAt c' k
  clock : c'.clock = c.clock := by rfl
  upgradeAuthority : c'.upgradeAuthority = c.upgradeAuthority := by rfl

theorem Chain.Frame.content {writable : List Pubkey} (frame : c.Frame c' writable) {x : Place}
    (other : x ∉ writable.map .account) : c'.content x = c.content x := by
  cases x with
  | account k =>
    have same := frame.away k fun member => other (List.mem_map_of_mem member)
    simp only [Chain.content, same.bank.mint, same.bank.account, same.vault, same.subaccount, same.nomination,
      same.queue, same.request]
    split
    · rename_i here
      rw [same.config here]
    · rfl
  | clock => exact congrArg Content.clock frame.clock
  | upgradeAuthority => exact congrArg Content.upgradeAuthority frame.upgradeAuthority

theorem VaultAdmin.update_frame {a : VaultAdmin} {change : VaultState → Result VaultState}
    (ran : a.update c change = .ok c') : c.Frame c' [a.vaultState] := by
  obtain ⟨_, _, _, _, _, _, rfl⟩ := VaultAdmin.update_eq_ok ran
  exact { away := fun k other => { vault := Finmap.lookup_insert_of_ne _ (List.ne_of_not_mem_cons other) } }

theorem Deposit.frame {a : Deposit} {amount minSharesOut : Nat}
    (ran : Deposit.handlerChecked c a amount minSharesOut = .ok c') :
    c.Frame c' [a.vaultState, a.vaultTokenAta, a.senderTokenAccount, a.senderShareAccount, a.shareMint] := by
  obtain ⟨_, _, _, _, _, spec, rfl⟩ := Deposit.handlerChecked_eq_ok.mp ran
  refine { away := fun k other => ?_ }
  simp only [List.mem_cons, List.not_mem_nil, or_false, not_or] at other
  obtain ⟨vault, reserve, token, share, shareMint⟩ := other
  have bank := (Bank.transfer_sameAt spec.pays token reserve).trans (Bank.mintTo_sameAt spec.mints shareMint share)
  exact { bank := bank, vault := Finmap.lookup_insert_of_ne _ vault }

theorem Redeem.frame {a : Redeem} {shares minAssetsOut : Nat}
    (ran : Redeem.handlerChecked c a shares minAssetsOut = .ok c') :
    c.Frame c' [a.vaultState, a.vaultDepositAta, a.senderTokenAccount, a.senderShareAccount, a.feeRecipientAccount,
      a.shareMint] := by
  obtain ⟨_, _, _, _, _, spec, rfl⟩ := Redeem.handlerChecked_eq_ok.mp ran
  refine { away := fun k other => ?_ }
  simp only [List.mem_cons, List.not_mem_nil, or_false, not_or] at other
  obtain ⟨vault, reserve, token, share, fee, shareMint⟩ := other
  exact {
    bank := Redeem.interactions_sameAt spec.interactions share shareMint reserve fee token
    vault := Finmap.lookup_insert_of_ne _ vault }

theorem OperatorTransfer.record_away {a : OperatorTransfer} (other : k ∉ a.subaccount.toList) (s : Subaccount) :
    (a.record c s).lookup k = c.subaccounts.lookup k := by
  unfold OperatorTransfer.record
  split
  · rfl
  · rename_i key named
    rw [named] at other
    exact Finmap.lookup_insert_of_ne _ (List.ne_of_not_mem_cons other)

theorem OperatorWithdraw.frame {a : OperatorTransfer} {amount : Nat}
    (ran : OperatorWithdraw.handler c a amount = .ok c') :
    c.Frame c' ([a.vaultState, a.vaultDepositAta, a.operatorTokenAccount] ++ a.subaccount.toList) := by
  obtain ⟨_, _, entry, _, _, spec, rfl⟩ := OperatorWithdraw.handler_eq_ok ran
  refine { away := fun k other => ?_ }
  simp only [List.mem_append, List.mem_cons, List.not_mem_nil, or_false, not_or] at other
  obtain ⟨⟨vault, reserve, token⟩, registry⟩ := other
  have recorded := spec.recorded
  cases entry with
  | none =>
    cases pure_eq_ok.mp recorded
    exact { bank := Bank.transfer_sameAt spec.pays reserve token, vault := Finmap.lookup_insert_of_ne _ vault }
  | some s =>
    simp only [OperatorTransfer.deploy, bind_eq_ok, pure_eq_ok] at recorded
    obtain ⟨_, _, rfl⟩ := recorded
    exact {
      bank := Bank.transfer_sameAt spec.pays reserve token
      vault := Finmap.lookup_insert_of_ne _ vault
      subaccount := OperatorTransfer.record_away registry _ }

theorem OperatorDeposit.frame {a : OperatorTransfer} {amount : Nat}
    (ran : OperatorDeposit.handler c a amount = .ok c') :
    c.Frame c' ([a.vaultState, a.vaultDepositAta, a.operatorTokenAccount] ++ a.subaccount.toList) := by
  obtain ⟨_, _, entry, _, spec, rfl⟩ := OperatorDeposit.handler_eq_ok ran
  refine { away := fun k other => ?_ }
  simp only [List.mem_append, List.mem_cons, List.not_mem_nil, or_false, not_or] at other
  obtain ⟨⟨vault, reserve, token⟩, registry⟩ := other
  cases entry with
  | none => exact { bank := Bank.transfer_sameAt spec.pays token reserve, vault := Finmap.lookup_insert_of_ne _ vault }
  | some s =>
    exact {
      bank := Bank.transfer_sameAt spec.pays token reserve
      vault := Finmap.lookup_insert_of_ne _ vault
      subaccount := OperatorTransfer.record_away registry _ }

theorem VaultInstruction.frame {i : VaultInstruction} (ran : c.executeVault i = .ok c') : c.Frame c' i.writable := by
  cases i with
  | initializeConfig =>
    simp only [Chain.executeVault, InitializeConfig.handler, bind_eq_ok, require_eq_ok, pure_eq_ok,
      exists_const] at ran
    obtain ⟨_, _, _, rfl⟩ := ran
    exact { away := fun k other => { config := fun here => absurd here (List.ne_of_not_mem_cons other) } }
  | setConfigAuthority =>
    simp only [Chain.executeVault, SetConfigAuthority.handler, bind_eq_ok, require_eq_ok, pure_eq_ok,
      exists_const] at ran
    obtain ⟨_, _, _, _, rfl⟩ := ran
    exact { away := fun k other => { config := fun here => absurd here (List.ne_of_not_mem_cons other) } }
  | overrideConfigAuthority =>
    simp only [Chain.executeVault, OverrideConfigAuthority.handler, bind_eq_ok, require_eq_ok, pure_eq_ok,
      exists_const] at ran
    obtain ⟨_, _, _, _, rfl⟩ := ran
    exact { away := fun k other => { config := fun here => absurd here (List.ne_of_not_mem_cons other) } }
  | initializeVault =>
    obtain ⟨_, _, _, spec, rfl⟩ := Initialize.handler_eq_ok ran
    refine { away := fun k other => ?_ }
    simp only [VaultInstruction.writable, List.mem_cons, List.not_mem_nil, or_false, not_or] at other
    obtain ⟨vault, shareMint, reserve⟩ := other
    have created := Bank.initializeMint_sameAt spec.creates shareMint
    exact {
      bank := created.trans (Bank.initializeAccount_sameAt spec.reserves reserve)
      vault := Finmap.lookup_insert_of_ne _ vault }
  | deposit | depositChecked => exact Deposit.frame ran
  | redeem | redeemChecked => exact Redeem.frame ran
  | operatorWithdraw => exact OperatorWithdraw.frame ran
  | operatorDeposit => exact OperatorDeposit.frame ran
  | operatorUpdateAum =>
    obtain ⟨_, _, rfl⟩ := OperatorUpdateAum.handler_eq_ok ran
    exact { away := fun k other => { vault := Finmap.lookup_insert_of_ne _ (List.ne_of_not_mem_cons other) } }
  | registerSubaccount =>
    obtain ⟨_, _, _, rfl⟩ := RegisterSubaccount.handler_eq_ok ran
    refine { away := fun k other => ?_ }
    simp only [VaultInstruction.writable, List.mem_cons, List.not_mem_nil, or_false, not_or] at other
    exact { vault := Finmap.lookup_insert_of_ne _ other.1, subaccount := Finmap.lookup_insert_of_ne _ other.2 }
  | settleSubaccountLoss =>
    obtain ⟨_, _, _, _, rfl⟩ := SettleSubaccountLoss.handler_eq_ok ran
    refine { away := fun k other => ?_ }
    simp only [VaultInstruction.writable, List.mem_cons, List.not_mem_nil, or_false, not_or] at other
    exact { vault := Finmap.lookup_insert_of_ne _ other.1, subaccount := Finmap.lookup_insert_of_ne _ other.2 }
  | deregisterSubaccount =>
    obtain ⟨_, _, _, rfl⟩ := DeregisterSubaccount.handler_eq_ok ran
    refine { away := fun k other => ?_ }
    simp only [VaultInstruction.writable, List.mem_cons, List.not_mem_nil, or_false, not_or] at other
    exact { vault := Finmap.lookup_insert_of_ne _ other.1, subaccount := Finmap.lookup_erase_ne other.2 }
  | nominateAdmin =>
    simp only [Chain.executeVault, NominateAdmin.handler, bind_eq_ok, require_eq_ok, pure_eq_ok,
      exists_const] at ran
    obtain ⟨_, _, _, _, _, rfl⟩ := ran
    exact { away := fun k other => { nomination := Finmap.lookup_insert_of_ne _ (List.ne_of_not_mem_cons other) } }
  | acceptAdminNomination =>
    simp only [Chain.executeVault, AcceptAdminNomination.handler, bind_eq_ok, pure_eq_ok] at ran
    obtain ⟨_, _, _, _, _, _, _, _, rfl⟩ := ran
    refine { away := fun k other => ?_ }
    simp only [VaultInstruction.writable, List.mem_cons, List.not_mem_nil, or_false, not_or] at other
    exact { vault := Finmap.lookup_insert_of_ne _ other.1, nomination := Finmap.lookup_erase_ne other.2 }
  | setWithdrawalFee | setOperator | setFeeRecipient | setAumLimits | pause | unpause =>
    exact VaultAdmin.update_frame ran
  | attachWithdrawalQueue | detachWithdrawalQueue => exact VaultAdmin.update_frame ran
  | closeVault =>
    obtain ⟨_, _, _, _, spec, rfl⟩ := CloseVault.handler_eq_ok ran
    refine { away := fun k other => ?_ }
    simp only [VaultInstruction.writable, List.mem_cons, List.not_mem_nil, or_false, not_or] at other
    obtain ⟨vault, shareMint, reserve⟩ := other
    have closed := Bank.closeAccount_sameAt spec.closes reserve
    exact {
      bank := closed.trans (Bank.setMintAuthority_sameAt spec.revokes shareMint)
      vault := Finmap.lookup_erase_ne vault }
  | createShareTokenMetadata | updateShareTokenMetadata =>
    obtain ⟨_, _, rfl⟩ := ShareTokenMetadata.invoke_eq_ok.mp ran
    exact { away := fun _ _ => {} }

theorem QueueAdmin.update_frame {a : QueueAdmin} {change : WithdrawalQueue → Result WithdrawalQueue}
    (ran : a.update c change = .ok c') : c.Frame c' [a.queue] := by
  obtain ⟨_, _, _, _, _, _, _, _, _, rfl⟩ := QueueAdmin.update_eq_ok ran
  exact { away := fun k other => { queue := Finmap.lookup_insert_of_ne _ (List.ne_of_not_mem_cons other) } }

theorem QueueInstruction.frame {i : QueueInstruction} (ran : c.executeQueue i = .ok c') : c.Frame c' i.writable := by
  cases i with
  | initializeQueue =>
    obtain ⟨_, _, _, _, spec, rfl⟩ := InitializeQueue.handler_eq_ok ran
    refine { away := fun k other => ?_ }
    simp only [QueueInstruction.writable, List.mem_cons, List.not_mem_nil, or_false, not_or] at other
    obtain ⟨queue, shares, assets⟩ := other
    have withShares := Bank.initAssociatedIfNeeded_sameAt spec.shares shares
    exact {
      bank := withShares.trans (Bank.initAssociatedIfNeeded_sameAt spec.assets assets)
      queue := Finmap.lookup_insert_of_ne _ queue }
  | setCooldown a seconds =>
    have ran : SetCooldown.handler c a seconds.toNat = .ok c' := ran
    exact QueueAdmin.update_frame ran
  | setFulfillmentWindow a seconds =>
    have ran : SetFulfillmentWindow.handler c a seconds.toNat = .ok c' := ran
    exact QueueAdmin.update_frame ran
  | requestWithdrawal =>
    obtain ⟨_, _, _, spec, rfl⟩ := RequestWithdrawal.handler_eq_ok ran
    refine { away := fun k other => ?_ }
    simp only [QueueInstruction.writable, List.mem_cons, List.not_mem_nil, or_false, not_or] at other
    obtain ⟨queue, source, escrow, request⟩ := other
    exact {
      bank := Bank.transfer_sameAt spec.escrows source escrow
      queue := Finmap.lookup_insert_of_ne _ queue
      request := Finmap.lookup_insert_of_ne _ request }
  | finalizeWithdrawal =>
    obtain ⟨_, _, _, _, _, _, _, _, _, _, _, spec, rfl⟩ := FinalizeWithdrawal.handler_eq_ok.mp ran
    refine { away := fun k other => ?_ }
    simp only [QueueInstruction.writable, List.mem_cons, List.not_mem_nil, or_false, not_or] at other
    obtain ⟨queue, vault, reserve, fee, shares, assets, shareMint, request, recipient⟩ := other
    have redeemed := Redeem.interactions_sameAt spec.redeem.interactions shares shareMint reserve fee assets
    exact {
      bank := redeemed.trans (Bank.transfer_sameAt spec.forwards assets recipient)
      vault := Finmap.lookup_insert_of_ne _ vault
      queue := Finmap.lookup_insert_of_ne _ queue
      request := Finmap.lookup_erase_ne request }
  | cancelWithdrawal =>
    obtain ⟨_, _, _, spec, rfl⟩ := CancelWithdrawal.handler_eq_ok.mp ran
    refine { away := fun k other => ?_ }
    simp only [QueueInstruction.writable, List.mem_cons, List.not_mem_nil, or_false, not_or] at other
    obtain ⟨queue, request, escrow, destination⟩ := other
    exact {
      bank := Bank.transfer_sameAt spec.returns escrow destination
      queue := Finmap.lookup_insert_of_ne _ queue
      request := Finmap.lookup_erase_ne request }
  | releaseVault =>
    obtain ⟨_, _, _, rfl⟩ := ReleaseVault.handler_eq_ok ran
    exact { away := fun k other => { vault := Finmap.lookup_insert_of_ne _ (List.ne_of_not_mem_cons other) } }
  | sweepEscrowShares =>
    obtain ⟨_, _, _, _, spec, rfl⟩ := SweepEscrowShares.handler_eq_ok.mp ran
    refine { away := fun k other => ?_ }
    simp only [QueueInstruction.writable, List.mem_cons, List.not_mem_nil, or_false, not_or] at other
    exact { bank := Bank.transfer_sameAt spec.sweeps other.1 other.2 }
  | expediteRequest =>
    obtain ⟨_, _, _, _, rfl⟩ := ExpediteRequest.handler_eq_ok ran
    exact { away := fun k other => { request := Finmap.lookup_insert_of_ne _ (List.ne_of_not_mem_cons other) } }

end Chain

section Run
variable {c₀ c c' : Chain} {i : Instruction} {history : List (Chain × Instruction)} {x : Place}

/-- No instruction changes what it does not declare writable. -/
theorem Step.frame (taken : Step c i c') (other : x ∉ i.writes) : c'.content x = c.content x := by
  have executed := taken.executed
  cases i with
  | vault i => exact (VaultInstruction.frame executed).content other
  | queue i => exact (QueueInstruction.frame executed).content other
  | token i =>
    simp only [Chain.execute, bind_eq_ok, pure_eq_ok] at executed
    obtain ⟨bank, ran, rfl⟩ := executed
    have frame : c.Frame { c with bank := bank } i.writable :=
      { away := fun k other => { bank := Bank.execute_sameAt ran other } }
    exact frame.content other
  | clock now =>
    simp only [Chain.execute, bind_eq_ok, require_eq_ok, pure_eq_ok, exists_const] at executed
    obtain ⟨_, rfl⟩ := executed
    cases x with
    | account | upgradeAuthority => rfl
    | clock => exact absurd List.mem_cons_self other
  | setUpgradeAuthority =>
    cases pure_eq_ok.mp executed
    cases x with
    | account | clock => rfl
    | upgradeAuthority => exact absurd List.mem_cons_self other

/-- What changes along a run was declared writable by an instruction that ran. -/
theorem undeclared_place_kept (run : Run Step c₀ history c) (undeclared : ∀ event ∈ history, x ∉ event.2.writes) :
    c.content x = c₀.content x := by
  induction run with
  | start => rfl
  | @next history d i c' previous taken ih =>
    have before := ih fun event member => undeclared event (List.mem_cons_of_mem _ member)
    exact (taken.frame (undeclared _ List.mem_cons_self)).trans before

end Run

namespace Sample

/-- A deposit and a pause, which leave the depositor's request for a withdrawal alone. -/
def halting : List Instruction := [.vault (.deposit deposit 500), .vault (.pause ⟨vault, mint, admin⟩)]

end Sample

open Sample in
theorem halting_request_kept :
    (queued.runAll halting).content (.account (request 7)) = queued.content (.account (request 7)) :=
  undeclared_place_kept (Chain.runAll_run queued halting) fun event member =>
    (show ∀ i ∈ halting, .account (request 7) ∉ i.writes by decide +kernel) event.2 (Chain.events_mem member)

end Upshift
