import Upshift.Isolation.Vaults
import Upshift.Isolation.Writable
import Upshift.Lib.Footprint
import Upshift.Lib.Restrict
import Upshift.Queue.EventLog

namespace Upshift
open Guard KeyedStore History Footprint

def Bank.only (b : Bank) (p : Pubkey → Bool) : Bank := ⟨restrict p b.mints, restrict p b.accounts⟩

def accountsOf (K : Place → Bool) (k : Pubkey) : Bool := K (.account k)

/-- The chain with nothing but what is at some places, and no events. -/
def Chain.only (c : Chain) (K : Place → Bool) : Chain where
  bank := c.bank.only (accountsOf K)
  vaults := KeyedStore.restrict (accountsOf K) c.vaults
  subaccounts := KeyedStore.restrict (accountsOf K) c.subaccounts
  nominations := KeyedStore.restrict (accountsOf K) c.nominations
  config := if accountsOf K .programConfig then c.config else none
  queues := KeyedStore.restrict (accountsOf K) c.queues
  requests := KeyedStore.restrict (accountsOf K) c.requests
  upgradeAuthority := if K .upgradeAuthority then c.upgradeAuthority else none
  clock := if K .clock then c.clock else 0
  log := []

/-- What a step from `c` leaves at some places, with the events it reports. -/
def Chain.part (c : Chain) (K : Place → Bool) (c' : Chain) : Chain :=
  { c'.only K with log := c'.log.take (c'.log.length - c.log.length) }

theorem fetch_restrict {α : Type} {p : Pubkey → Bool} {s : Store Pubkey α} {k : Pubkey} (named : p k = true)
    (e : Error) : fetch (restrict p s) k e = fetch s k e := by
  simp only [fetch, lookup_restrict named]

section Bank
variable {b : Bank} {p : Pubkey → Bool}

theorem Bank.transfer_only {source mint destination : Pubkey} (authority : Pubkey) (amount : Nat)
    (src : p source = true) (atMint : p mint = true) (dst : p destination = true) :
    (b.only p).transferChecked source mint destination authority amount =
      (b.transferChecked source mint destination authority amount).map (Bank.only · p) := by
  simp only [Bank.transferChecked, Bank.account, Bank.mint, Bank.only, fetch_restrict src, fetch_restrict atMint,
    fetch_restrict dst, mapped_bind]
  by_cases same : source = destination
  · simp only [if_pos same, mapped_pure]
  · simp only [if_neg same, mapped_bind, mapped_pure, restrict_insert dst, restrict_insert src]

theorem Bank.mintTo_only {mint account : Pubkey} (authority : Pubkey) (amount : Nat) (atMint : p mint = true)
    (dst : p account = true) :
    (b.only p).mintToChecked mint account authority amount =
      (b.mintToChecked mint account authority amount).map (Bank.only · p) := by
  simp only [Bank.mintToChecked, Bank.account, Bank.mint, Bank.only, fetch_restrict atMint, fetch_restrict dst,
    mapped_bind, mapped_pure, restrict_insert atMint, restrict_insert dst]

theorem Bank.burn_only {account mint : Pubkey} (authority : Pubkey) (amount : Nat) (src : p account = true)
    (atMint : p mint = true) :
    (b.only p).burnChecked account mint authority amount =
      (b.burnChecked account mint authority amount).map (Bank.only · p) := by
  simp only [Bank.burnChecked, Bank.account, Bank.mint, Bank.only, fetch_restrict atMint, fetch_restrict src,
    mapped_bind, mapped_pure, restrict_insert atMint, restrict_insert src]

theorem Bank.closeAccount_only {account : Pubkey} (authority : Pubkey) (owned : p account = true) :
    (b.only p).closeAccount account authority = (b.closeAccount account authority).map (Bank.only · p) := by
  simp only [Bank.closeAccount, Bank.account, Bank.only, fetch_restrict owned, mapped_bind, mapped_pure, restrict_erase]

theorem Bank.setMintAuthority_only {mint : Pubkey} (authority : Pubkey) (newAuthority : Option Pubkey)
    (owned : p mint = true) : (b.only p).setMintAuthority mint authority newAuthority =
      (b.setMintAuthority mint authority newAuthority).map (Bank.only · p) := by
  simp only [Bank.setMintAuthority, Bank.mint, Bank.only, fetch_restrict owned, mapped_bind, mapped_pure,
    restrict_insert owned]

theorem Bank.vacant_only {k : Pubkey} (owned : p k = true) (e : Error) :
    require ((b.only p).vacant k) e = require (b.vacant k) e := by
  refine require_congr ?_ e
  simp only [Bank.vacant, Bank.only, lookup_restrict owned]

theorem Bank.initializeAccount_only {account mint : Pubkey} (owner : Pubkey) (owned : p account = true)
    (atMint : p mint = true) : (b.only p).initializeAccount account mint owner =
      (b.initializeAccount account mint owner).map (Bank.only · p) := by
  simp only [Bank.initializeAccount, Bank.vacant_only owned, Bank.mint, mapped_bind, mapped_pure]
  simp only [Bank.only, fetch_restrict atMint, restrict_insert owned]

theorem Bank.initializeMint_only {mint : Pubkey} (program : TokenProgram) (authority : Option Pubkey) (decimals : Nat)
    (freezeAuthority : Option Pubkey) (extensions : List ExtensionType) (owned : p mint = true) :
    (b.only p).initializeMint mint program authority decimals freezeAuthority extensions =
      (b.initializeMint mint program authority decimals freezeAuthority extensions).map (Bank.only · p) := by
  simp only [Bank.initializeMint, Bank.vacant_only owned, mapped_bind, mapped_pure]
  simp only [Bank.only, restrict_insert owned]

theorem Bank.initAssociatedIfNeeded_only {account mint : Pubkey} (authority : Pubkey) (owned : p account = true)
    (atMint : p mint = true) : (b.only p).initAssociatedIfNeeded account mint authority =
      (b.initAssociatedIfNeeded account mint authority).map (Bank.only · p) := by
  have same : (b.only p).accounts.lookup account = b.accounts.lookup account := lookup_restrict owned
  simp only [Bank.initAssociatedIfNeeded, same, mapped_bind]
  refine bind_same fun _ => ?_
  split
  · exact Bank.initializeAccount_only authority owned atMint
  · simp only [mapped_bind, mapped_pure]

theorem Bank.execute_only (i : TokenInstruction) (named : ∀ k ∈ i.accounts, p k = true) :
    (b.only p).execute i = (b.execute i).map (Bank.only · p) := by
  cases i with
  | transfer =>
    simp only [TokenInstruction.accounts, List.forall_mem_cons] at named
    exact Bank.transfer_only _ _ named.1 named.2.1 named.2.2.1
  | mintTo =>
    simp only [TokenInstruction.accounts, List.forall_mem_cons] at named
    exact Bank.mintTo_only _ _ named.1 named.2.1
  | burn =>
    simp only [TokenInstruction.accounts, List.forall_mem_cons] at named
    exact Bank.burn_only _ _ named.2.1 named.1
  | approve =>
    have owned := named _ List.mem_cons_self
    simp only [Bank.execute, Bank.approve, Bank.account, Bank.only, fetch_restrict owned, mapped_bind, mapped_pure,
      restrict_insert owned]
  | revoke =>
    have owned := named _ List.mem_cons_self
    simp only [Bank.execute, Bank.revoke, Bank.account, Bank.only, fetch_restrict owned, mapped_bind, mapped_pure,
      restrict_insert owned]
  | setAccountOwner =>
    have owned := named _ List.mem_cons_self
    simp only [Bank.execute, Bank.setAccountOwner, Bank.account, Bank.only, fetch_restrict owned, mapped_bind,
      mapped_pure, restrict_insert owned]
  | setCloseAuthority =>
    have owned := named _ List.mem_cons_self
    simp only [Bank.execute, Bank.setCloseAuthority, Bank.account, Bank.only, fetch_restrict owned, mapped_bind,
      mapped_pure, restrict_insert owned]
  | setMintAuthority => exact Bank.setMintAuthority_only _ _ (named _ List.mem_cons_self)
  | closeAccount => exact Bank.closeAccount_only _ (named _ List.mem_cons_self)
  | createAssociatedAccount | initializeAccount =>
    simp only [TokenInstruction.accounts, List.forall_mem_cons] at named
    exact Bank.initializeAccount_only _ named.1 named.2.1
  | initializeMint => exact Bank.initializeMint_only _ _ _ _ _ (named _ List.mem_cons_self)

end Bank

section Vault
variable {c : Chain} {K : Place → Bool}

theorem Chain.only_vaultAt {vaultState depositMint : Pubkey} (vault : accountsOf K vaultState = true)
    (mint : accountsOf K depositMint = true) :
    (c.only K).vaultAt vaultState depositMint = c.vaultAt vaultState depositMint := by
  simp only [Chain.vaultAt, Chain.only, Bank.only, fetch_restrict vault, fetch_restrict mint]

theorem Chain.only_tokenAccount {account : Pubkey} (mint authority : Pubkey) (owned : accountsOf K account = true) :
    (c.only K).tokenAccount account mint authority = c.tokenAccount account mint authority := by
  simp only [Chain.tokenAccount, Chain.only, Bank.only, fetch_restrict owned]

theorem Chain.only_associatedAccount {account : Pubkey} (mint authority : Pubkey)
    (owned : accountsOf K account = true) :
    (c.only K).associatedAccount account mint authority = c.associatedAccount account mint authority := by
  simp only [Chain.associatedAccount, Chain.only_tokenAccount mint authority owned]

theorem Chain.only_reserveAt {account : Pubkey} (vaultState depositMint : Pubkey) (vaultVersion : Nat)
    (owned : accountsOf K account = true) :
    (c.only K).reserveAt account vaultState depositMint vaultVersion =
      c.reserveAt account vaultState depositMint vaultVersion := by
  simp only [Chain.reserveAt, Chain.only_tokenAccount depositMint vaultState owned]

theorem Chain.only_shareMintAt {shareMint : Pubkey} (vaultState depositMint : Pubkey) (vaultVersion : Nat)
    (owned : accountsOf K shareMint = true) :
    (c.only K).shareMintAt shareMint vaultState depositMint vaultVersion =
      c.shareMintAt shareMint vaultState depositMint vaultVersion := by
  simp only [Chain.shareMintAt, Chain.only, Bank.only, fetch_restrict owned]

theorem Chain.only_sameDecimals {shareMint depositMint : Pubkey} (share : accountsOf K shareMint = true)
    (deposit : accountsOf K depositMint = true) :
    (c.only K).sameDecimals shareMint depositMint = c.sameDecimals shareMint depositMint := by
  simp only [Chain.sameDecimals, Chain.only, Bank.only, fetch_restrict share, fetch_restrict deposit]

theorem Chain.only_subaccountAt {subaccount : Pubkey} (vaultState : Pubkey)
    (owned : accountsOf K subaccount = true) :
    (c.only K).subaccountAt subaccount vaultState = c.subaccountAt subaccount vaultState := by
  simp only [Chain.subaccountAt, Chain.only, fetch_restrict owned]

/-- A step that reports nothing, over the tokens, the vaults and the entries. -/
theorem Chain.part_silent (bank : Bank) (vaults : Store Pubkey VaultState) (subaccounts : Store Pubkey Subaccount) :
    c.part K { c with bank := bank, vaults := vaults, subaccounts := subaccounts } =
      { c.only K with
        bank := bank.only (accountsOf K)
        vaults := KeyedStore.restrict (accountsOf K) vaults
        subaccounts := KeyedStore.restrict (accountsOf K) subaccounts } := by
  simp only [Chain.part, Chain.only, Nat.sub_self, List.take_zero]

theorem VaultAdmin.update_only {a : VaultAdmin} {change change' : VaultState → Result VaultState}
    (vault : accountsOf K a.vaultState = true) (mint : accountsOf K a.depositMint = true)
    (same : ∀ v, change' v = change v) : a.update (c.only K) change' = (a.update c change).map (c.part K) := by
  simp only [VaultAdmin.update, VaultAdmin.accounts, Chain.only_vaultAt vault mint, same, mapped_bind, mapped_pure]
  simp only [Chain.part, Chain.only, restrict_insert vault, Nat.sub_self, List.take_zero]

theorem Deposit.handler_only {a : Deposit} (amount minSharesOut : Nat)
    (named : ∀ k ∈ (VaultInstruction.deposit a 0).accounts, accountsOf K k = true) :
    Deposit.handlerChecked (c.only K) a amount minSharesOut =
      (Deposit.handlerChecked c a amount minSharesOut).map (c.part K) := by
  simp only [VaultInstruction.accounts, List.forall_mem_cons] at named
  obtain ⟨vault, reserve, token, share, shareMint, mint, _⟩ := named
  have accounts : a.accounts (c.only K) = a.accounts c := by
    simp only [Deposit.accounts, Chain.only_vaultAt vault mint, Chain.only_reserveAt _ _ _ reserve,
      Chain.only_tokenAccount _ _ token, Chain.only_tokenAccount _ _ share, Chain.only_shareMintAt _ _ _ shareMint,
      Chain.only_sameDecimals shareMint mint]
  have bank : (c.only K).bank = c.bank.only (accountsOf K) := rfl
  simp only [Deposit.handlerChecked, accounts, bank, Bank.transfer_only _ _ token mint reserve,
    Bank.mintTo_only _ _ shareMint share, mapped_bind, bind_mapped, mapped_pure]
  refine bind_same ?_
  rintro ⟨v, supply, decimals⟩
  simp only [Chain.part_silent, restrict_insert vault]
  rfl

theorem Redeem.interactions_only {a : Redeem} {b : Bank} {p : Pubkey → Bool} (shares fees finalAmount : Nat)
    (reserve : p a.vaultDepositAta = true) (token : p a.senderTokenAccount = true)
    (share : p a.senderShareAccount = true) (fee : p a.feeRecipientAccount = true) (shareMint : p a.shareMint = true)
    (mint : p a.depositMint = true) :
    a.interactions (b.only p) shares fees finalAmount =
      (a.interactions b shares fees finalAmount).map (Bank.only · p) := by
  simp only [Redeem.interactions, Bank.burn_only _ _ share shareMint, Bank.transfer_only _ _ reserve mint fee,
    Bank.transfer_only _ _ reserve mint token, mapped_bind, bind_mapped]

theorem Redeem.handler_only {a : Redeem} (shares minAssetsOut : Nat)
    (named : ∀ k ∈ (VaultInstruction.redeem a 0).accounts, accountsOf K k = true) :
    Redeem.handlerChecked (c.only K) a shares minAssetsOut =
      (Redeem.handlerChecked c a shares minAssetsOut).map (c.part K) := by
  simp only [VaultInstruction.accounts, List.forall_mem_cons] at named
  obtain ⟨vault, reserve, token, share, fee, shareMint, mint, _⟩ := named
  have accounts : a.accounts (c.only K) = a.accounts c := by
    simp only [Redeem.accounts, Chain.only_vaultAt vault mint, Chain.only_reserveAt _ _ _ reserve,
      Chain.only_tokenAccount _ _ token, Chain.only_tokenAccount _ _ share, Chain.only_tokenAccount _ _ fee,
      Chain.only_shareMintAt _ _ _ shareMint, Chain.only_sameDecimals shareMint mint]
  have bank : (c.only K).bank = c.bank.only (accountsOf K) := rfl
  simp only [Redeem.handlerChecked, accounts, bank,
    Redeem.interactions_only _ _ _ reserve token share fee shareMint mint, mapped_bind, bind_mapped, mapped_pure]
  refine bind_same ?_
  rintro ⟨v, supply⟩
  simp only [Chain.part_silent, restrict_insert vault]
  rfl

theorem OperatorTransfer.accounts_only {a : OperatorTransfer}
    (named : ∀ k ∈ (VaultInstruction.operatorWithdraw a 0).accounts, accountsOf K k = true) :
    a.accounts (c.only K) = a.accounts c := by
  simp only [VaultInstruction.accounts, List.mem_append, or_imp, forall_and, List.forall_mem_cons] at named
  obtain ⟨⟨vault, reserve, token, mint, _⟩, registry⟩ := named
  have entry : a.entry (c.only K) = a.entry c := by
    unfold OperatorTransfer.entry
    split
    · rfl
    · rename_i key given
      rw [given] at registry
      rw [Chain.only_subaccountAt _ (registry key List.mem_cons_self)]
  simp only [OperatorTransfer.accounts, entry, Chain.only_vaultAt vault mint, Chain.only_reserveAt _ _ _ reserve,
    Chain.only_associatedAccount _ _ token]

theorem OperatorTransfer.record_only {a : OperatorTransfer}
    (registry : ∀ k ∈ a.subaccount.toList, accountsOf K k = true) (s : Subaccount) :
    a.record (c.only K) s = restrict (accountsOf K) (a.record c s) := by
  unfold OperatorTransfer.record
  split
  · rfl
  · rename_i key given
    rw [given] at registry
    exact (restrict_insert (registry key List.mem_cons_self) s).symm

theorem OperatorWithdraw.handler_only {a : OperatorTransfer} (amount : Nat)
    (named : ∀ k ∈ (VaultInstruction.operatorWithdraw a 0).accounts, accountsOf K k = true) :
    OperatorWithdraw.handler (c.only K) a amount = (OperatorWithdraw.handler c a amount).map (c.part K) := by
  have accounts : a.accounts (c.only K) = a.accounts c := OperatorTransfer.accounts_only named
  simp only [VaultInstruction.accounts, List.mem_append, or_imp, forall_and, List.forall_mem_cons] at named
  obtain ⟨⟨vault, reserve, token, mint, _⟩, registry⟩ := named
  have deploy : ∀ entry, a.deploy (c.only K) entry amount =
      (a.deploy c entry amount).map (restrict (accountsOf K)) := by
    intro entry
    cases entry with
    | none => rfl
    | some s => simp only [OperatorTransfer.deploy, OperatorTransfer.record_only registry, mapped_bind, mapped_pure]
  have bank : (c.only K).bank = c.bank.only (accountsOf K) := rfl
  simp only [OperatorWithdraw.handler, accounts, bank, Bank.transfer_only _ _ reserve mint token, deploy, mapped_bind,
    bind_mapped, mapped_pure]
  refine bind_same ?_
  rintro ⟨v, dest, entry⟩
  simp only [Chain.part_silent, restrict_insert vault]
  rfl

theorem OperatorDeposit.handler_only {a : OperatorTransfer} (amount : Nat)
    (named : ∀ k ∈ (VaultInstruction.operatorWithdraw a 0).accounts, accountsOf K k = true) :
    OperatorDeposit.handler (c.only K) a amount = (OperatorDeposit.handler c a amount).map (c.part K) := by
  have accounts : a.accounts (c.only K) = a.accounts c := OperatorTransfer.accounts_only named
  simp only [VaultInstruction.accounts, List.mem_append, or_imp, forall_and, List.forall_mem_cons] at named
  obtain ⟨⟨vault, reserve, token, mint, _⟩, registry⟩ := named
  have bank : (c.only K).bank = c.bank.only (accountsOf K) := rfl
  simp only [OperatorDeposit.handler, accounts, bank, Bank.transfer_only _ _ token mint reserve, mapped_bind,
    bind_mapped, mapped_pure]
  refine bind_same ?_
  rintro ⟨v, source, entry⟩
  cases entry with
  | none =>
    simp only [Chain.part_silent, restrict_insert vault]
    rfl
  | some s =>
    simp only [Chain.part_silent, restrict_insert vault, OperatorTransfer.record_only registry]
    rfl

theorem ShareTokenMetadata.invoke_only {a : ShareTokenMetadata} (program : MetadataProgram) (call : MetadataCall)
    (vault : accountsOf K a.vaultState = true) (mint : accountsOf K a.depositMint = true)
    (shareMint : accountsOf K a.shareMint = true) :
    a.invoke (c.only K) program call = (a.invoke c program call).map (c.part K) := by
  have accounts : a.accounts (c.only K) = a.accounts c := by
    simp only [ShareTokenMetadata.accounts, Chain.only, Bank.only, fetch_restrict vault, fetch_restrict mint,
      fetch_restrict shareMint]
  simp only [ShareTokenMetadata.invoke, accounts, mapped_bind, mapped_pure]
  simp only [Chain.part, Chain.only, Nat.sub_self, List.take_zero]

/-- An instruction of the vault program does to its own accounts what it does to the whole chain. -/
theorem VaultInstruction.execute_only {i : VaultInstruction} (named : ∀ k ∈ i.accounts, accountsOf K k = true)
    (around : ∀ x ∈ i.surroundings, K x = true) : (c.only K).executeVault i = (c.executeVault i).map (c.part K) := by
  cases i with
  | deposit | depositChecked => exact Deposit.handler_only _ _ named
  | redeem | redeemChecked => exact Redeem.handler_only _ _ named
  | operatorWithdraw => exact OperatorWithdraw.handler_only _ named
  | operatorDeposit => exact OperatorDeposit.handler_only _ named
  | initializeConfig =>
    have owned := named _ List.mem_cons_self
    have config : (c.only K).config = c.config := if_pos owned
    have seen := around _ List.mem_cons_self
    have authority : (c.only K).upgradeAuthority = c.upgradeAuthority := if_pos seen
    simp only [Chain.executeVault, InitializeConfig.handler, config, authority, mapped_bind, mapped_pure]
    simp only [Chain.part, Chain.only, if_pos owned, if_pos seen, Nat.sub_self, List.take_zero]
  | setConfigAuthority =>
    have owned := named _ List.mem_cons_self
    have config : (c.only K).config = c.config := if_pos owned
    simp only [Chain.executeVault, SetConfigAuthority.handler, config, mapped_bind, mapped_pure]
    simp only [Chain.part, Chain.only, if_pos owned, Nat.sub_self, List.take_zero]
  | overrideConfigAuthority =>
    have owned := named _ List.mem_cons_self
    have config : (c.only K).config = c.config := if_pos owned
    have seen := around _ List.mem_cons_self
    have authority : (c.only K).upgradeAuthority = c.upgradeAuthority := if_pos seen
    simp only [Chain.executeVault, OverrideConfigAuthority.handler, config, authority, mapped_bind, mapped_pure]
    simp only [Chain.part, Chain.only, if_pos owned, if_pos seen, Nat.sub_self, List.take_zero]
  | initializeVault =>
    simp only [VaultInstruction.accounts, List.forall_mem_cons] at named
    obtain ⟨config, mint, vault, shareMint, reserve, _⟩ := named
    have config : (c.only K).config = c.config := if_pos config
    have bank : (c.only K).bank = c.bank.only (accountsOf K) := rfl
    have vaults : (c.only K).vaults = restrict (accountsOf K) c.vaults := rfl
    have mints : (c.bank.only (accountsOf K)).mints = restrict (accountsOf K) c.bank.mints := rfl
    simp only [Chain.executeVault, Initialize.handler, config, bank, vaults, mints, fetch_restrict mint,
      lookup_restrict vault, Bank.initializeMint_only _ _ _ _ _ shareMint, Bank.initializeAccount_only _ reserve mint,
      mapped_bind, bind_mapped, mapped_pure, Chain.part_silent, restrict_insert vault]
    rfl
  | operatorUpdateAum =>
    simp only [VaultInstruction.accounts, List.forall_mem_cons] at named
    obtain ⟨vault, mint, _⟩ := named
    simp only [Chain.executeVault, OperatorUpdateAum.handler, Chain.only_vaultAt vault mint, mapped_bind, mapped_pure,
      Chain.part_silent, restrict_insert vault]
    rfl
  | registerSubaccount =>
    simp only [VaultInstruction.accounts, List.forall_mem_cons] at named
    obtain ⟨vault, entry, mint, account, _⟩ := named
    have subaccounts : (c.only K).subaccounts = restrict (accountsOf K) c.subaccounts := rfl
    simp only [Chain.executeVault, RegisterSubaccount.handler, Chain.only_vaultAt vault mint, subaccounts,
      lookup_restrict entry, Chain.only_associatedAccount _ _ account, mapped_bind, mapped_pure, Chain.part_silent,
      restrict_insert vault, restrict_insert entry]
    rfl
  | settleSubaccountLoss =>
    simp only [VaultInstruction.accounts, List.forall_mem_cons] at named
    obtain ⟨vault, entry, mint, account, _⟩ := named
    simp only [Chain.executeVault, SettleSubaccountLoss.handler, Chain.only_vaultAt vault mint,
      Chain.only_subaccountAt _ entry, Chain.only_associatedAccount _ _ account, mapped_bind, mapped_pure,
      Chain.part_silent, restrict_insert vault, restrict_insert entry]
    rfl
  | deregisterSubaccount =>
    simp only [VaultInstruction.accounts, List.forall_mem_cons] at named
    obtain ⟨vault, entry, mint, _⟩ := named
    simp only [Chain.executeVault, DeregisterSubaccount.handler, Chain.only_vaultAt vault mint,
      Chain.only_subaccountAt _ entry, mapped_bind, mapped_pure, Chain.part_silent, restrict_insert vault,
      restrict_erase]
    rfl
  | nominateAdmin =>
    simp only [VaultInstruction.accounts, List.forall_mem_cons] at named
    obtain ⟨vault, mint, nomination, _⟩ := named
    have seen := around _ List.mem_cons_self
    have clock : (c.only K).clock = c.clock := if_pos seen
    simp only [Chain.executeVault, NominateAdmin.handler, VaultAdmin.accounts, Chain.only_vaultAt vault mint, clock,
      mapped_bind, mapped_pure]
    simp only [Chain.part, Chain.only, restrict_insert nomination, if_pos seen, Nat.sub_self, List.take_zero]
  | acceptAdminNomination =>
    simp only [VaultInstruction.accounts, List.forall_mem_cons] at named
    obtain ⟨vault, mint, nomination, _⟩ := named
    have seen := around _ List.mem_cons_self
    have clock : (c.only K).clock = c.clock := if_pos seen
    have nominations : (c.only K).nominations = restrict (accountsOf K) c.nominations := rfl
    simp only [Chain.executeVault, AcceptAdminNomination.handler, Chain.only_vaultAt vault mint, clock, nominations,
      fetch_restrict nomination, mapped_bind, mapped_pure]
    simp only [Chain.part, Chain.only, restrict_insert vault, restrict_erase, if_pos seen, Nat.sub_self, List.take_zero]
  | setWithdrawalFee | setOperator | setFeeRecipient | setAumLimits | pause | unpause | detachWithdrawalQueue =>
    simp only [VaultInstruction.accounts, List.forall_mem_cons] at named
    exact VaultAdmin.update_only named.1 named.2.1 fun _ => rfl
  | attachWithdrawalQueue a queue =>
    simp only [VaultInstruction.accounts, List.forall_mem_cons] at named
    refine VaultAdmin.update_only named.1 named.2.1 fun v => ?_
    have found : (c.only K).queues.lookup queue = c.queues.lookup queue := lookup_restrict named.2.2.1
    simp only [found]
  | closeVault =>
    simp only [VaultInstruction.accounts, List.forall_mem_cons] at named
    obtain ⟨vault, shareMint, reserve, mint, _⟩ := named
    have bank : (c.only K).bank = c.bank.only (accountsOf K) := rfl
    simp only [Chain.executeVault, CloseVault.handler, Chain.only_vaultAt vault mint,
      Chain.only_shareMintAt _ _ _ shareMint, Chain.only_reserveAt _ _ _ reserve, bank,
      Bank.closeAccount_only _ reserve, Bank.setMintAuthority_only _ _ shareMint, mapped_bind, bind_mapped, mapped_pure,
      Chain.part_silent, restrict_erase]
    rfl
  | createShareTokenMetadata | updateShareTokenMetadata =>
    simp only [VaultInstruction.accounts, List.forall_mem_cons] at named
    exact ShareTokenMetadata.invoke_only _ _ named.1 named.2.1 named.2.2.1

end Vault

section Queue
variable {c : Chain} {K : Place → Bool}

theorem Chain.only_queueAt {queue : Pubkey} (owned : accountsOf K queue = true) :
    (c.only K).queueAt queue = c.queueAt queue := by
  simp only [Chain.queueAt, Chain.only, fetch_restrict owned]

theorem Chain.only_queueOfVault {queue vaultState : Pubkey} (owned : accountsOf K queue = true)
    (vault : accountsOf K vaultState = true) :
    (c.only K).queueOfVault queue vaultState = c.queueOfVault queue vaultState := by
  have vaults : (c.only K).vaults = KeyedStore.restrict (accountsOf K) c.vaults := rfl
  simp only [Chain.queueOfVault, Chain.only_queueAt owned, vaults, fetch_restrict vault]

theorem Chain.only_requestAt {request : Pubkey} (queue : Pubkey) (owned : accountsOf K request = true) :
    (c.only K).requestAt request queue = c.requestAt request queue := by
  simp only [Chain.requestAt, Chain.only, fetch_restrict owned]

/-- A step that reports one event. -/
theorem Chain.part_reported (bank : Bank) (vaults : Store Pubkey VaultState) (queues : Store Pubkey WithdrawalQueue)
    (requests : Store Pubkey WithdrawalRequest) (e : QueueEvent) :
    c.part K { c with bank := bank, vaults := vaults, queues := queues, requests := requests, log := e :: c.log } =
      { c.only K with
        bank := bank.only (accountsOf K)
        vaults := KeyedStore.restrict (accountsOf K) vaults
        queues := KeyedStore.restrict (accountsOf K) queues
        requests := KeyedStore.restrict (accountsOf K) requests
        log := [e] } := by
  simp only [Chain.part, Chain.only, List.length_cons, Nat.add_sub_cancel_left, List.take_succ_cons, List.take_zero]

theorem QueueAdmin.update_only {a : QueueAdmin} (change : WithdrawalQueue → Result WithdrawalQueue)
    (queue : accountsOf K a.queue = true) (vault : accountsOf K a.vaultState = true) :
    a.update (c.only K) change = (a.update c change).map (c.part K) := by
  simp only [QueueAdmin.update, Chain.only_queueOfVault queue vault, mapped_bind, mapped_pure]
  refine bind_same ?_
  rintro ⟨q, v⟩
  simp only [Chain.part_reported, restrict_insert queue]
  rfl

theorem InitializeQueue.handler_only {a : InitializeQueue} (cooldownSeconds : Nat)
    (named : ∀ k ∈ (QueueInstruction.initializeQueue a 0).accounts, accountsOf K k = true) :
    InitializeQueue.handler (c.only K) a cooldownSeconds =
      (InitializeQueue.handler c a cooldownSeconds).map (c.part K) := by
  simp only [QueueInstruction.accounts, List.forall_mem_cons] at named
  obtain ⟨vault, deposit, share, queue, shares, assets, _⟩ := named
  have bank : (c.only K).bank = c.bank.only (accountsOf K) := rfl
  have vaults : (c.only K).vaults = restrict (accountsOf K) c.vaults := rfl
  have queues : (c.only K).queues = restrict (accountsOf K) c.queues := rfl
  have mints : (c.bank.only (accountsOf K)).mints = restrict (accountsOf K) c.bank.mints := rfl
  simp only [InitializeQueue.handler, vaults, queues, bank, mints, fetch_restrict vault, lookup_restrict queue,
    fetch_restrict deposit, fetch_restrict share, Bank.initAssociatedIfNeeded_only _ shares share,
    Bank.initAssociatedIfNeeded_only _ assets deposit, mapped_bind, bind_mapped, mapped_pure, Chain.part_reported,
    restrict_insert queue]
  rfl

theorem RequestWithdrawal.handler_only {a : RequestWithdrawal} (requestId shares minAssetsOut : Nat)
    (finalizer : Pubkey)
    (named : ∀ k ∈ (QueueInstruction.requestWithdrawal a 0 0 0 finalizer).accounts, accountsOf K k = true)
    (seen : K .clock = true) :
    RequestWithdrawal.handler (c.only K) a requestId shares minAssetsOut finalizer =
      (RequestWithdrawal.handler c a requestId shares minAssetsOut finalizer).map (c.part K) := by
  simp only [QueueInstruction.accounts, List.forall_mem_cons] at named
  obtain ⟨queue, vault, source, escrow, share, recipient, request, _⟩ := named
  have clock : (c.only K).clock = c.clock := if_pos seen
  have bank : (c.only K).bank = c.bank.only (accountsOf K) := rfl
  have accounts : (c.bank.only (accountsOf K)).accounts = restrict (accountsOf K) c.bank.accounts := rfl
  have requests : (c.only K).requests = restrict (accountsOf K) c.requests := rfl
  simp only [RequestWithdrawal.handler, Chain.only_queueOfVault queue vault, Chain.only_tokenAccount _ _ source, bank,
    accounts, requests, fetch_restrict recipient, lookup_restrict request, Bank.transfer_only _ _ source share escrow,
    mapped_bind, bind_mapped, mapped_pure, Chain.part_reported, restrict_insert queue, restrict_insert request, clock]
  rfl

theorem CancelWithdrawal.handler_only {a : CancelWithdrawal} (expectedSequence : Nat)
    (named : ∀ k ∈ (QueueInstruction.cancelWithdrawal a 0).accounts, accountsOf K k = true) :
    CancelWithdrawal.handler (c.only K) a expectedSequence =
      (CancelWithdrawal.handler c a expectedSequence).map (c.part K) := by
  simp only [QueueInstruction.accounts, List.forall_mem_cons] at named
  obtain ⟨queue, request, escrow, share, destination, _⟩ := named
  have bank : (c.only K).bank = c.bank.only (accountsOf K) := rfl
  simp only [CancelWithdrawal.handler, Chain.only_queueAt queue, Chain.only_requestAt _ request,
    Chain.only_tokenAccount _ _ destination, bank, Bank.transfer_only _ _ escrow share destination, mapped_bind,
    bind_mapped, mapped_pure, Chain.part_reported, restrict_insert queue, restrict_erase]
  rfl

theorem ExpediteRequest.handler_only {a : ExpediteRequest} (expectedSequence : Nat)
    (named : ∀ k ∈ (QueueInstruction.expediteRequest a 0).accounts, accountsOf K k = true) (seen : K .clock = true) :
    ExpediteRequest.handler (c.only K) a expectedSequence =
      (ExpediteRequest.handler c a expectedSequence).map (c.part K) := by
  simp only [QueueInstruction.accounts, List.forall_mem_cons] at named
  obtain ⟨queue, vault, request, _⟩ := named
  have clock : (c.only K).clock = c.clock := if_pos seen
  simp only [ExpediteRequest.handler, Chain.only_queueOfVault queue vault, Chain.only_requestAt _ request, clock,
    mapped_bind, mapped_pure, Chain.part_reported, restrict_insert request]
  rfl

theorem SweepEscrowShares.handler_only {a : SweepEscrowShares}
    (named : ∀ k ∈ (QueueInstruction.sweepEscrowShares a).accounts, accountsOf K k = true) :
    SweepEscrowShares.handler (c.only K) a = (SweepEscrowShares.handler c a).map (c.part K) := by
  simp only [QueueInstruction.accounts, List.forall_mem_cons] at named
  obtain ⟨queue, vault, escrow, share, destination, _⟩ := named
  have bank : (c.only K).bank = c.bank.only (accountsOf K) := rfl
  have accounts : (c.bank.only (accountsOf K)).accounts = restrict (accountsOf K) c.bank.accounts := rfl
  simp only [SweepEscrowShares.handler, Chain.only_queueOfVault queue vault, bank, accounts, fetch_restrict escrow,
    fetch_restrict destination, Bank.transfer_only _ _ escrow share destination, mapped_bind, bind_mapped, mapped_pure,
    Chain.part_reported]
  rfl

theorem ReleaseVault.handler_only {a : ReleaseVault}
    (named : ∀ k ∈ (QueueInstruction.releaseVault a).accounts, accountsOf K k = true) :
    ReleaseVault.handler (c.only K) a = (ReleaseVault.handler c a).map (c.part K) := by
  simp only [QueueInstruction.accounts, List.forall_mem_cons] at named
  obtain ⟨queue, vault, mint, _⟩ := named
  have detach : DetachWithdrawalQueue.handler (c.only K) ⟨a.vaultState, a.depositMint, a.admin⟩ a.queue =
      (DetachWithdrawalQueue.handler c ⟨a.vaultState, a.depositMint, a.admin⟩ a.queue).map (c.part K) :=
    VaultAdmin.update_only vault mint fun _ => rfl
  simp only [ReleaseVault.handler, Chain.only_queueOfVault queue vault, detach, mapped_bind, bind_mapped, mapped_pure]
  refine bind_same ?_
  rintro ⟨q, v⟩
  refine bind_same fun _ => bind_same fun _ => bind_same_of_ok fun detached ran => ?_
  obtain ⟨_, _, _, _, _, _, rfl⟩ := VaultAdmin.update_eq_ok ran
  simp only [Chain.part_silent, Chain.part_reported]
  rfl

theorem FinalizeWithdrawal.handler_only {a : FinalizeWithdrawal} (expectedSequence : Nat)
    (named : ∀ k ∈ (QueueInstruction.finalizeWithdrawal a 0).accounts, accountsOf K k = true)
    (seen : K .clock = true) : FinalizeWithdrawal.handler (c.only K) a expectedSequence =
      (FinalizeWithdrawal.handler c a expectedSequence).map (c.part K) := by
  simp only [QueueInstruction.accounts, List.forall_mem_cons] at named
  obtain ⟨queue, vault, reserve, fee, shares, assets, share, mint, request, recipient, _⟩ := named
  have clock : (c.only K).clock = c.clock := if_pos seen
  have vaults : (c.only K).vaults = restrict (accountsOf K) c.vaults := rfl
  have bank : (c.only K).bank.accounts = restrict (accountsOf K) c.bank.accounts := rfl
  have accounts : a.accounts (c.only K) = a.accounts c := by
    simp only [FinalizeWithdrawal.accounts, Chain.only_queueAt queue, vaults, bank, fetch_restrict vault,
      fetch_restrict reserve, fetch_restrict fee, fetch_restrict shares, fetch_restrict assets,
      Chain.only_requestAt _ request, fetch_restrict recipient]
  have redeem : ∀ shares, Redeem.handler (c.only K) a.redeem shares =
      (Redeem.handler c a.redeem shares).map (c.part K) := by
    intro redeemed
    refine Redeem.handler_only redeemed 0 ?_
    simp only [VaultInstruction.accounts, FinalizeWithdrawal.redeem, List.forall_mem_cons]
    exact ⟨vault, reserve, assets, shares, fee, share, mint, List.forall_mem_nil _⟩
  have paid : ∀ d, (c.part K d).bank.accounts = restrict (accountsOf K) d.bank.accounts := fun _ => rfl
  have payout : ∀ shares before, a.payout (c.only K) shares before =
      (a.payout c shares before).map fun x => (c.part K x.1, x.2) := by
    intro _ _
    simp only [FinalizeWithdrawal.payout, redeem, paid, fetch_restrict assets, mapped_bind, bind_mapped, mapped_pure]
  have forward : ∀ d, (c.part K d).bank = d.bank.only (accountsOf K) := fun _ => rfl
  simp only [FinalizeWithdrawal.handler, accounts, clock, payout, forward, Bank.transfer_only _ _ assets mint recipient,
    mapped_bind, bind_mapped, mapped_pure]
  refine bind_same ?_
  rintro ⟨q, r, t, before⟩
  refine bind_same fun _ => bind_same fun _ => bind_same fun _ => bind_same fun _ => bind_same fun _ =>
    bind_same fun closed => bind_same_of_ok ?_
  rintro ⟨redeemed, paid⟩ ran
  simp only [FinalizeWithdrawal.payout, Redeem.handler, bind_eq_ok, pure_eq_ok, Prod.mk.injEq] at ran
  obtain ⟨_, ran, _, _, _, _, rfl, rfl⟩ := ran
  obtain ⟨v, m, gross, fees, bank', spec, rfl⟩ := Redeem.handlerChecked_eq_ok.mp ran
  simp only [Redeem.after, Chain.part_silent, Chain.part_reported, restrict_insert queue, restrict_erase]
  rfl

/-- An instruction of the queue program does to its own accounts what it does to the whole chain. -/
theorem QueueInstruction.execute_only {i : QueueInstruction} (named : ∀ k ∈ i.accounts, accountsOf K k = true)
    (around : ∀ x ∈ i.surroundings, K x = true) : (c.only K).executeQueue i = (c.executeQueue i).map (c.part K) := by
  cases i with
  | initializeQueue => exact InitializeQueue.handler_only _ named
  | setCooldown a seconds =>
    simp only [QueueInstruction.accounts, List.forall_mem_cons] at named
    exact QueueAdmin.update_only (fun q => q.setCooldown seconds.toNat) named.1 named.2.1
  | setFulfillmentWindow a seconds =>
    simp only [QueueInstruction.accounts, List.forall_mem_cons] at named
    exact QueueAdmin.update_only (fun q => q.setFulfillmentWindow seconds.toNat) named.1 named.2.1
  | requestWithdrawal => exact RequestWithdrawal.handler_only _ _ _ _ named (around _ List.mem_cons_self)
  | finalizeWithdrawal => exact FinalizeWithdrawal.handler_only _ named (around _ List.mem_cons_self)
  | cancelWithdrawal => exact CancelWithdrawal.handler_only _ named
  | releaseVault => exact ReleaseVault.handler_only named
  | sweepEscrowShares => exact SweepEscrowShares.handler_only named
  | expediteRequest => exact ExpediteRequest.handler_only _ named (around _ List.mem_cons_self)

end Queue

section Content
variable {c c' d : Chain} {K : Place → Bool}

/-- What two chains share at an address. -/
theorem Chain.content_account {k : Pubkey} (same : c.content (.account k) = d.content (.account k)) :
    c.bank.mints.lookup k = d.bank.mints.lookup k ∧ c.bank.accounts.lookup k = d.bank.accounts.lookup k ∧
      c.vaults.lookup k = d.vaults.lookup k ∧ c.subaccounts.lookup k = d.subaccounts.lookup k ∧
        c.nominations.lookup k = d.nominations.lookup k ∧ (k = .programConfig → c.config = d.config) ∧
          c.queues.lookup k = d.queues.lookup k ∧ c.requests.lookup k = d.requests.lookup k := by
  obtain ⟨mint, account, vault, subaccount, nomination, config, queue, request⟩ := Content.account.inj same
  refine ⟨mint, account, vault, subaccount, nomination, fun here => ?_, queue, request⟩
  rwa [if_pos here, if_pos here] at config

theorem Chain.only_congr (agree : ∀ x, K x = true → c.content x = d.content x) : c.only K = d.only K := by
  have at' := fun k (owned : accountsOf K k = true) => Chain.content_account (agree (.account k) owned)
  have config : (c.only K).config = (d.only K).config := by
    simp only [Chain.only]
    split
    · rename_i owned
      exact (at' _ owned).2.2.2.2.2.1 rfl
    · rfl
  have authority : (c.only K).upgradeAuthority = (d.only K).upgradeAuthority := by
    simp only [Chain.only]
    split
    · rename_i seen
      exact Content.upgradeAuthority.inj (agree _ seen)
    · rfl
  have clock : (c.only K).clock = (d.only K).clock := by
    simp only [Chain.only]
    split
    · rename_i seen
      exact Content.clock.inj (agree _ seen)
    · rfl
  have mints := restrict_congr fun k owned => (at' k owned).1
  have accounts := restrict_congr fun k owned => (at' k owned).2.1
  have vaults := restrict_congr fun k owned => (at' k owned).2.2.1
  have subaccounts := restrict_congr fun k owned => (at' k owned).2.2.2.1
  have nominations := restrict_congr fun k owned => (at' k owned).2.2.2.2.1
  have queues := restrict_congr fun k owned => (at' k owned).2.2.2.2.2.2.1
  have requests := restrict_congr fun k owned => (at' k owned).2.2.2.2.2.2.2
  simp only [Chain.only] at config authority clock
  simp only [Chain.only, Bank.only, mints, accounts, vaults, subaccounts, nominations, queues, requests, config,
    authority, clock]

theorem Chain.part_content {x : Place} (owned : K x = true) : (c.part K c').content x = c'.content x := by
  cases x with
  | account k =>
    have owned : accountsOf K k = true := owned
    simp only [Chain.content, Chain.part, Chain.only, Bank.only, lookup_restrict owned]
    by_cases here : k = .programConfig
    · subst here
      simp only [if_pos owned]
    · simp only [if_neg here]
  | clock => exact congrArg Content.clock (if_pos owned)
  | upgradeAuthority => exact congrArg Content.upgradeAuthority (if_pos owned)

/-- The places determine the chain, but for its events. -/
theorem Chain.eq_of_content (same : ∀ x, c.content x = d.content x) :
    { c with log := [] } = { d with log := [] } := by
  have at' := fun k => Chain.content_account (same (.account k))
  obtain ⟨⟨mints, accounts⟩, vaults, subaccounts, nominations, config, queues, requests, authority, clock, log⟩ := c
  obtain ⟨⟨mints', accounts'⟩, vaults', subaccounts', nominations', config', queues', requests', authority', clock',
    log'⟩ := d
  cases Finmap.ext_lookup fun k => (at' k).1
  cases Finmap.ext_lookup fun k => (at' k).2.1
  cases Finmap.ext_lookup fun k => (at' k).2.2.1
  cases Finmap.ext_lookup fun k => (at' k).2.2.2.1
  cases Finmap.ext_lookup fun k => (at' k).2.2.2.2.1
  cases (at' .programConfig).2.2.2.2.2.1 rfl
  cases Finmap.ext_lookup fun k => (at' k).2.2.2.2.2.2.1
  cases Finmap.ext_lookup fun k => (at' k).2.2.2.2.2.2.2
  cases Content.upgradeAuthority.inj (same .upgradeAuthority)
  cases Content.clock.inj (same .clock)
  rfl

end Content

section Schedule
variable {c c' : Chain} {i : Instruction} {K : Place → Bool}

theorem Chain.process_only (named : ∀ x ∈ i.reads, K x = true) :
    (c.only K).process i = (c.process i).map (c.part K) := by
  have executed : (c.only K).execute i = (c.execute i).map (c.part K) := by
    cases i with
    | vault i =>
      simp only [Instruction.reads, List.mem_append, or_imp, forall_and, List.forall_mem_map] at named
      exact VaultInstruction.execute_only named.2 named.1
    | queue i =>
      simp only [Instruction.reads, List.mem_append, or_imp, forall_and, List.forall_mem_map] at named
      exact QueueInstruction.execute_only named.2 named.1
    | token i =>
      simp only [Instruction.reads, List.forall_mem_map] at named
      have bank : (c.only K).bank = c.bank.only (accountsOf K) := rfl
      have ran := @Bank.execute_only c.bank (accountsOf K) i named
      simp only [Chain.execute, bank, ran, mapped_bind, bind_mapped, mapped_pure, Chain.part_silent]
      rfl
    | clock now =>
      have seen := named _ List.mem_cons_self
      simp only [Chain.execute, mapped_bind, mapped_pure]
      simp only [Chain.part, Chain.only, if_pos seen, Nat.sub_self, List.take_zero]
    | setUpgradeAuthority =>
      have seen := named _ List.mem_cons_self
      simp only [Chain.execute, mapped_pure]
      simp only [Chain.part, Chain.only, if_pos seen, Nat.sub_self, List.take_zero]
  simp only [Chain.process, executed, mapped_bind]

theorem Step.log_grows (taken : Step c i c') : ∃ new, c'.log = new ++ c.log := by
  cases taken.log_move with
  | silent _ _ log => exact ⟨[], log⟩
  | general _ _ log => exact ⟨[_], log⟩
  | opened | expedited | cancelled | finalized => exact ⟨[_], rfl⟩

theorem VaultInstruction.writable_given (i : VaultInstruction) : ∀ k ∈ i.writable, k ∈ i.accounts := by
  intro k member
  cases i <;> simp only [writable, accounts, List.mem_append, List.mem_cons] at member ⊢ <;> tauto

theorem QueueInstruction.writable_given (i : QueueInstruction) : ∀ k ∈ i.writable, k ∈ i.accounts := by
  intro k member
  cases i <;> simp only [writable, accounts, List.mem_cons] at member ⊢ <;> tauto

theorem TokenInstruction.writable_given (i : TokenInstruction) : ∀ k ∈ i.writable, k ∈ i.accounts := by
  intro k member
  cases i <;> simp only [writable, accounts, List.mem_cons] at member ⊢ <;> tauto

theorem Instruction.writes_read (i : Instruction) : ∀ x ∈ i.writes, x ∈ i.reads := by
  intro x member
  cases i with
  | vault i =>
    obtain ⟨k, declared, rfl⟩ := List.mem_map.mp member
    exact List.mem_append_right _ (List.mem_map_of_mem (i.writable_given k declared))
  | queue i =>
    obtain ⟨k, declared, rfl⟩ := List.mem_map.mp member
    exact List.mem_append_right _ (List.mem_map_of_mem (i.writable_given k declared))
  | token i =>
    obtain ⟨k, declared, rfl⟩ := List.mem_map.mp member
    exact List.mem_map_of_mem (i.writable_given k declared)
  | clock | setUpgradeAuthority => exact member

def Chain.cells : Cells Chain Place Content QueueEvent := ⟨Chain.content, Chain.log⟩

/-- Every instruction keeps to the places it names, and writes none but those it declares writable. -/
theorem Instruction.local (i : Instruction) :
    Chain.cells.Local (· ∈ i.reads) (· ∈ i.writes) (fun c => c.process i) := by
  refine ⟨i.writes_read, fun c c' taken x other => Step.frame taken other, fun c d agree => ?_⟩
  have named : ∀ x ∈ i.reads, decide (x ∈ i.reads) = true := fun _ => decide_eq_true
  have here := Chain.process_only (c := c) named
  have there := Chain.process_only (c := d) named
  rw [Chain.only_congr fun x seen => agree x (of_decide_eq_true seen), there] at here
  cases ran : c.process i with
  | error e =>
    cases ran' : d.process i with
    | error e' =>
      rw [ran, ran'] at here
      exact (Except.error.inj here).symm
    | ok d' =>
      rw [ran, ran'] at here
      cases here
  | ok c' =>
    cases ran' : d.process i with
    | error e' =>
      rw [ran, ran'] at here
      cases here
    | ok d' =>
      rw [ran, ran'] at here
      have parts := Except.ok.inj here
      obtain ⟨new, grown⟩ := Step.log_grows ran
      obtain ⟨new', grown'⟩ := Step.log_grows ran'
      have events := congrArg Chain.log parts
      simp only [Chain.part, grown, grown', List.length_append, Nat.add_sub_cancel, List.take_left] at events
      subst events
      refine ⟨fun x seen => ?_, new', grown, grown'⟩
      have same := congrArg (fun e : Chain => e.content x) parts
      have shown := fun before after : Chain =>
        @Chain.part_content before after (fun x => decide (x ∈ i.reads)) x (named x seen)
      simp only [shown] at same
      exact same.symm

/-- One of the instructions writes what the other looks at. -/
def Instruction.conflicts (i j : Instruction) : Bool :=
  i.writes.any (fun x => decide (x ∈ j.reads)) || j.writes.any fun x => decide (x ∈ i.reads)

theorem Instruction.apart_of_conflicts {i j : Instruction} (free : i.conflicts j = false) :
    Apart (· ∈ i.reads) (· ∈ i.writes) (· ∈ j.reads) (· ∈ j.writes) := by
  simp only [Instruction.conflicts, Bool.or_eq_false_iff, List.any_eq_false, decide_eq_true_eq] at free
  exact fun x => ⟨free.1 x, free.2 x⟩

theorem Chain.runAll_eq (c : Chain) (script : List Instruction) :
    c.runAll script = Footprint.runAll (fun i c => Chain.process c i) c script := by
  induction script generalizing c with
  | nil => rfl
  | cons i rest ih =>
    have first : c.next i = after (fun c => c.process i) c := by
      cases ran : c.process i with
      | ok c' => simp only [Chain.next, after, ran]
      | error e => simp only [Chain.next, after, ran]
    rw [Chain.runAll, List.foldl_cons, ← Chain.runAll, ih, first]
    rfl

/-- Transactions without conflicts may run in any order: a script that keeps the order of those in conflict ends
in the same chain, with the same queue events but for their order, and every transaction has the same result. A
refusal is compared by the code of this model, whose checks do not stand in the order of the programs'. -/
theorem order_irrelevant {script script' : List Instruction}
    (reordered : Reorders (fun i j => i.conflicts j = false) script script') :
    { c.runAll script with log := [] } = { c.runAll script' with log := [] } ∧
      (c.runAll script).log.Perm (c.runAll script').log ∧
        (results (fun i c => Chain.process c i) c script).Perm (results (fun i c => Chain.process c i) c script') := by
  have apart := reordered.weaken fun _ _ => Instruction.apart_of_conflicts
  obtain ⟨equal, same⟩ := runAll_reorders Instruction.local apart c
  rw [Chain.runAll_eq, Chain.runAll_eq]
  exact ⟨Chain.eq_of_content equal.view, equal.output, same⟩

end Schedule

namespace Sample

/-- A request, the creation of a second vault, another attempt that is refused, and a new account. -/
def batch : List Instruction :=
  [.queue (.requestWithdrawal (requesting 8) 8 1000 0 .default),
    .vault (.initializeVault ⟨admin, mint, twin, twinShareMint, twinReserve⟩ admin operator admin 1 1000),
    .vault (.initializeVault ⟨user, mint, .vaultState mint 2, .shareMint mint 2, .vaultToken mint 2⟩ user user user 2
      1000),
    .token (.createAssociatedAccount operator shareMint)]

example : (results (fun i c => Chain.process c i) queued batch).map Prod.snd =
      [none, none, some (.vault .notProtocolAuthority), none] ∧
    (queued.runAll batch).log = .withdrawalRequested vault queue (request 8) 8 user 2 1000 (wallet user) .default
      3600 0 0 :: queued.log := by
  decide +kernel

end Sample

open Sample in
theorem batch_order_irrelevant :
    { queued.runAll batch with log := [] } = { queued.runAll batch.reverse with log := [] } ∧
      (queued.runAll batch).log.Perm (queued.runAll batch.reverse).log ∧
        (results (fun i c => Chain.process c i) queued batch).Perm
          (results (fun i c => Chain.process c i) queued batch.reverse) :=
  @order_irrelevant queued batch batch.reverse (.of_perm (by decide +kernel) (List.reverse_perm batch).symm)

end Upshift
