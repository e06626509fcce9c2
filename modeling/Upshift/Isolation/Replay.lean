import Upshift.Isolation.Local

namespace Upshift
open Guard KeyedStore

section Vault
variable {c c' : Chain}

theorem AttachWithdrawalQueue.alone {a : VaultAdmin} {queue : Pubkey}
    (ran : AttachWithdrawalQueue.handler c a queue = .ok c') :
    c.Alone (fun d => AttachWithdrawalQueue.handler d a queue) c' a.vaultState := by
  refine VaultAdmin.update_alone (fun v => ?_) ran
  by_cases key : queue = withdrawalQueuePda a.vaultState
  · have found : (c.restrict a.vaultState).queues.lookup queue = c.queues.lookup queue :=
      lookup_restrict (Pubkey.partOf_withdrawalQueue key)
    simp only [found]
  · -- Another queue is refused before it is looked up.
    have refused : require (queue = withdrawalQueuePda a.vaultState)
        (Error.vault .invalidWithdrawalQueueAuthority) = .error _ := if_neg key
    simp only [refused, error_bind]

theorem NominateAdmin.alone {a : VaultAdmin} {pda nominee : Pubkey}
    (ran : NominateAdmin.handler c a pda nominee = .ok c') :
    c.Alone (fun d => NominateAdmin.handler d a pda nominee) c' a.vaultState := by
  simp only [NominateAdmin.handler, bind_eq_ok, require_eq_ok, pure_eq_ok, exists_const] at ran
  obtain ⟨v, accounts, pdaKey, n, nomination, rfl⟩ := ran
  have key := (VaultAdmin.accounts_eq_ok accounts).2.1
  have vaultOwned := Pubkey.partOf_vaultState key
  have owned := Pubkey.partOf_nominatedAdmin key pdaKey
  refine ⟨vaultOwned, ?_, ?_⟩
  · exact ⟨fun _ _ => rfl, fun _ _ => rfl, beyond_insert owned n, rfl, fun _ _ => rfl, fun _ _ => rfl, rfl, rfl,
      Or.inl rfl⟩
  · simp only [NominateAdmin.handler, bind_eq_ok, require_eq_ok, pure_eq_ok, exists_const]
    refine ⟨v, (VaultAdmin.accounts_restrict a vaultOwned).trans accounts, pdaKey, n, nomination, ?_⟩
    simp only [Chain.restrict, restrict_insert owned]

theorem AcceptAdminNomination.alone {a : AcceptAdminNomination} (ran : AcceptAdminNomination.handler c a = .ok c') :
    c.Alone (fun d => AcceptAdminNomination.handler d a) c' a.vaultState := by
  simp only [AcceptAdminNomination.handler, bind_eq_ok, fetch_eq_ok, require_eq_ok, pure_eq_ok, exists_const] at ran
  obtain ⟨v, vault, n, nomination, pdaKey, u, valid, rfl⟩ := ran
  have key := (Chain.vaultAt_eq_ok.mp vault).2.2
  have vaultOwned := Pubkey.partOf_vaultState key
  have owned := Pubkey.partOf_nominatedAdmin key pdaKey
  refine ⟨vaultOwned, ?_, ?_⟩
  · exact ⟨beyond_insert vaultOwned _, fun _ _ => rfl, beyond_erase owned, rfl, fun _ _ => rfl, fun _ _ => rfl, rfl,
      rfl, Or.inl rfl⟩
  · simp only [AcceptAdminNomination.handler, bind_eq_ok, fetch_eq_ok, require_eq_ok, pure_eq_ok, exists_const]
    refine ⟨v, (Chain.restrict_vaultAt vaultOwned _).trans vault, n, (lookup_restrict owned).trans nomination, pdaKey,
      u, valid, ?_⟩
    simp only [Chain.restrict, restrict_insert vaultOwned, restrict_erase]

theorem Deposit.alone {a : Deposit} {amount minSharesOut : Nat}
    (ran : Deposit.handlerChecked c a amount minSharesOut = .ok c') :
    c.Alone (fun d => Deposit.handlerChecked d a amount minSharesOut) c' a.vaultState := by
  obtain ⟨v, m, shares, paid, minted, spec, rfl⟩ := Deposit.handlerChecked_eq_ok.mp ran
  have owned := Pubkey.partOf_vaultState spec.valid.key
  have valid : a.Valid (c.restrict a.vaultState) v m :=
    { spec.valid with vault := (lookup_restrict owned).trans spec.valid.vault }
  refine Chain.alone_vault owned (fun _ _ => rfl) (Deposit.handlerChecked_eq_ok.mpr ?_)
  exact ⟨v, m, shares, paid, minted, { spec with valid := valid }, rfl⟩

theorem Redeem.alone {a : Redeem} {shares minAssetsOut : Nat}
    (ran : Redeem.handlerChecked c a shares minAssetsOut = .ok c') :
    c.Alone (fun d => Redeem.handlerChecked d a shares minAssetsOut) c' a.vaultState := by
  obtain ⟨v, m, assets, fees, paid, spec, rfl⟩ := Redeem.handlerChecked_eq_ok.mp ran
  have owned := Pubkey.partOf_vaultState spec.valid.key
  have valid : a.Valid (c.restrict a.vaultState) v m :=
    { spec.valid with vault := (lookup_restrict owned).trans spec.valid.vault }
  refine Chain.alone_vault owned (fun _ _ => rfl) (Redeem.handlerChecked_eq_ok.mpr ?_)
  exact ⟨v, m, assets, fees, paid, { spec with valid := valid }, rfl⟩

/-- The entry that an operator transfer names is part of its vault. -/
theorem OperatorTransfer.Valid.entry_owned {a : OperatorTransfer} {v : VaultState} {t : TokenAccount}
    {entry : Option Subaccount} (valid : a.Valid c v t entry) (key : Pubkey) (named : a.subaccount = some key) :
    a.vaultState.partOf key = true := by
  rcases valid.registered with ⟨none, _⟩ | ⟨key', _, some, _, _, derived⟩
  · cases none.symm.trans named
  · cases some.symm.trans named
    exact Pubkey.partOf_subaccount derived

theorem OperatorTransfer.accounts_restrict {a : OperatorTransfer} (owned : a.vaultState.partOf a.vaultState = true)
    (entries : ∀ key, a.subaccount = some key → a.vaultState.partOf key = true) :
    a.accounts (c.restrict a.vaultState) = a.accounts c := by
  have entry : a.entry (c.restrict a.vaultState) = a.entry c := by
    unfold OperatorTransfer.entry
    split
    · rfl
    · rename_i key named
      simp only [Chain.subaccountAt, fetch, Chain.restrict, lookup_restrict (entries key named)]
  simp only [OperatorTransfer.accounts, Chain.restrict_vaultAt owned, entry]
  rfl

theorem OperatorTransfer.record_restrict {a : OperatorTransfer}
    (entries : ∀ key, a.subaccount = some key → a.vaultState.partOf key = true) (s : Subaccount) :
    a.record (c.restrict a.vaultState) s = KeyedStore.restrict a.vaultState.partOf (a.record c s) := by
  unfold OperatorTransfer.record
  split
  · rfl
  · rename_i key named
    exact (restrict_insert (entries key named) s).symm

theorem OperatorTransfer.record_beyond {a : OperatorTransfer}
    (entries : ∀ key, a.subaccount = some key → a.vaultState.partOf key = true) (s : Subaccount) :
    ∀ x, a.vaultState.partOf x = false → (a.record c s).lookup x = c.subaccounts.lookup x := by
  unfold OperatorTransfer.record
  split
  · exact fun _ _ => rfl
  · rename_i key named
    exact beyond_insert (entries key named) s

theorem OperatorWithdraw.alone {a : OperatorTransfer} {amount : Nat}
    (ran : OperatorWithdraw.handler c a amount = .ok c') :
    c.Alone (fun d => OperatorWithdraw.handler d a amount) c' a.vaultState := by
  simp only [OperatorWithdraw.handler, bind_eq_ok, Prod.exists, require_eq_ok, okOr_eq_ok, pure_eq_ok,
    exists_const] at ran
  obtain ⟨v, dest, entry, accounts, positive, registry, delegation, paid, pays, _, kept, _, deployed, _,
    principal, subaccounts, recorded, rfl⟩ := ran
  have valid := OperatorTransfer.accounts_eq_ok accounts
  have owned := Pubkey.partOf_vaultState valid.key
  have entries := valid.entry_owned
  have moved : a.deploy (c.restrict a.vaultState) entry amount =
      .ok (KeyedStore.restrict a.vaultState.partOf subaccounts) ∧
        ∀ x, a.vaultState.partOf x = false → subaccounts.lookup x = c.subaccounts.lookup x := by
    cases entry with
    | none =>
      cases pure_eq_ok.mp recorded
      exact ⟨rfl, fun _ _ => rfl⟩
    | some s =>
      simp only [OperatorTransfer.deploy, bind_eq_ok, okOr_eq_ok, pure_eq_ok] at recorded ⊢
      obtain ⟨left, fits, rfl⟩ := recorded
      exact ⟨⟨left, fits, OperatorTransfer.record_restrict entries _⟩, OperatorTransfer.record_beyond entries _⟩
  refine Chain.alone_vault owned moved.2 ?_
  simp only [OperatorWithdraw.handler, bind_eq_ok, Prod.exists, require_eq_ok, okOr_eq_ok, pure_eq_ok, exists_const]
  exact ⟨v, dest, entry, (OperatorTransfer.accounts_restrict owned entries).trans accounts, positive, registry,
    delegation, paid, pays, _, kept, _, deployed, _, principal, _, moved.1, rfl⟩

theorem OperatorDeposit.alone {a : OperatorTransfer} {amount : Nat}
    (ran : OperatorDeposit.handler c a amount = .ok c') :
    c.Alone (fun d => OperatorDeposit.handler d a amount) c' a.vaultState := by
  simp only [OperatorDeposit.handler, bind_eq_ok, Prod.exists, require_eq_ok, okOr_eq_ok, pure_eq_ok,
    exists_const] at ran
  obtain ⟨v, source, entry, accounts, positive, registry, delegation, paid, pays, _, deployed, _, fits, rfl⟩ := ran
  have valid := OperatorTransfer.accounts_eq_ok accounts
  have owned := Pubkey.partOf_vaultState valid.key
  have entries := valid.entry_owned
  cases entry with
  | none =>
    refine Chain.alone_vault owned (fun _ _ => rfl) ?_
    simp only [OperatorDeposit.handler, bind_eq_ok, Prod.exists, require_eq_ok, okOr_eq_ok, pure_eq_ok, exists_const]
    exact ⟨v, source, none, (OperatorTransfer.accounts_restrict owned entries).trans accounts, positive, registry,
      delegation, paid, pays, _, deployed, _, fits, rfl⟩
  | some s =>
    refine Chain.alone_vault owned (OperatorTransfer.record_beyond entries _) ?_
    rw [← OperatorTransfer.record_restrict entries]
    simp only [OperatorDeposit.handler, bind_eq_ok, Prod.exists, require_eq_ok, okOr_eq_ok, pure_eq_ok, exists_const]
    exact ⟨v, source, some s, (OperatorTransfer.accounts_restrict owned entries).trans accounts, positive, registry,
      delegation, paid, pays, _, deployed, _, fits, rfl⟩

theorem OperatorUpdateAum.alone {a : OperatorUpdateAum} {newAum : Nat}
    (ran : OperatorUpdateAum.handler c a newAum = .ok c') :
    c.Alone (fun d => OperatorUpdateAum.handler d a newAum) c' a.vaultState := by
  simp only [OperatorUpdateAum.handler, bind_eq_ok, require_eq_ok, okOr_eq_ok, pure_eq_ok, exists_const] at ran
  obtain ⟨v, vault, operator, _, decrease, _, increase, _, scaled, _, lower, above, _, upper, below, rfl⟩ := ran
  have owned := Pubkey.partOf_vaultState (Chain.vaultAt_eq_ok.mp vault).2.2
  refine Chain.alone_vault owned (fun _ _ => rfl) ?_
  simp only [OperatorUpdateAum.handler, bind_eq_ok, require_eq_ok, okOr_eq_ok, pure_eq_ok, exists_const]
  exact ⟨v, (Chain.restrict_vaultAt owned _).trans vault, operator, _, decrease, _, increase, _, scaled, _, lower,
    above, _, upper, below, rfl⟩

theorem RegisterSubaccount.alone {a : SubaccountAdmin} {address : Pubkey}
    (ran : RegisterSubaccount.handler c a address = .ok c') :
    c.Alone (fun d => RegisterSubaccount.handler d a address) c' a.vaultState := by
  simp only [RegisterSubaccount.handler, bind_eq_ok, require_eq_ok, okOr_eq_ok, pure_eq_ok, exists_const] at ran
  obtain ⟨v, vault, entryKey, fresh, ata, account, admin, delegation, different, count, fits, rfl⟩ := ran
  have owned := Pubkey.partOf_vaultState (Chain.vaultAt_eq_ok.mp vault).2.2
  have entryOwned := Pubkey.partOf_subaccount entryKey
  refine Chain.alone_vault owned (beyond_insert entryOwned _) ?_
  rw [restrict_insert entryOwned]
  simp only [RegisterSubaccount.handler, bind_eq_ok, require_eq_ok, okOr_eq_ok, pure_eq_ok, exists_const]
  exact ⟨v, (Chain.restrict_vaultAt owned _).trans vault, entryKey, (lookup_restrict entryOwned).trans fresh, ata,
    account, admin, delegation, different, count, fits, rfl⟩

theorem Chain.restrict_subaccountAt {k key : Pubkey} (owned : k.partOf key = true) :
    (c.restrict k).subaccountAt key k = c.subaccountAt key k := by
  simp only [Chain.subaccountAt, fetch, Chain.restrict, lookup_restrict owned]

theorem SettleSubaccountLoss.alone {a : SubaccountAdmin} {amount : Nat}
    (ran : SettleSubaccountLoss.handler c a amount = .ok c') :
    c.Alone (fun d => SettleSubaccountLoss.handler d a amount) c' a.vaultState := by
  simp only [SettleSubaccountLoss.handler, bind_eq_ok, require_eq_ok, okOr_eq_ok, pure_eq_ok, exists_const] at ran
  obtain ⟨v, vault, s, entry, entryVault, ata, account, admin, positive, shortfall, _, principal, rfl⟩ := ran
  have owned := Pubkey.partOf_vaultState (Chain.vaultAt_eq_ok.mp vault).2.2
  have entryOwned := Pubkey.partOf_subaccount (Chain.subaccountAt_eq_ok.mp entry).2
  refine Chain.alone_vault owned (beyond_insert entryOwned _) ?_
  rw [restrict_insert entryOwned]
  simp only [SettleSubaccountLoss.handler, bind_eq_ok, require_eq_ok, okOr_eq_ok, pure_eq_ok, exists_const]
  exact ⟨v, (Chain.restrict_vaultAt owned _).trans vault, s, (Chain.restrict_subaccountAt entryOwned).trans entry,
    entryVault, ata, account, admin, positive, shortfall, _, principal, rfl⟩

theorem DeregisterSubaccount.alone {a : SubaccountAdmin} (ran : DeregisterSubaccount.handler c a = .ok c') :
    c.Alone (fun d => DeregisterSubaccount.handler d a) c' a.vaultState := by
  simp only [DeregisterSubaccount.handler, bind_eq_ok, require_eq_ok, pure_eq_ok, exists_const] at ran
  obtain ⟨v, vault, s, entry, entryVault, admin, empty, rfl⟩ := ran
  have owned := Pubkey.partOf_vaultState (Chain.vaultAt_eq_ok.mp vault).2.2
  have entryOwned := Pubkey.partOf_subaccount (Chain.subaccountAt_eq_ok.mp entry).2
  refine Chain.alone_vault owned (beyond_erase entryOwned) ?_
  rw [restrict_erase]
  simp only [DeregisterSubaccount.handler, bind_eq_ok, require_eq_ok, pure_eq_ok, exists_const]
  exact ⟨v, (Chain.restrict_vaultAt owned _).trans vault, s, (Chain.restrict_subaccountAt entryOwned).trans entry,
    entryVault, admin, empty, rfl⟩

theorem Initialize.alone {a : Initialize} {admin operator feeRecipient : Pubkey} {vaultVersion shareOffset : Nat}
    (ran : Initialize.handler c a admin operator feeRecipient vaultVersion shareOffset = .ok c') :
    c.Alone (fun d => Initialize.handler d a admin operator feeRecipient vaultVersion shareOffset) c' a.vaultState := by
  simp only [Initialize.handler, bind_eq_ok, require_eq_ok, pure_eq_ok, exists_const] at ran
  obtain ⟨config, authority, signer, deposit, atMint, key, shareMintKey, reserveKey, fresh, withMint, first,
    withReserve, second, offset, rfl⟩ := ran
  have owned := Pubkey.partOf_vaultState key
  refine Chain.alone_vault owned (fun _ _ => rfl) ?_
  simp only [Initialize.handler, bind_eq_ok, require_eq_ok, pure_eq_ok, exists_const]
  exact ⟨config, authority, signer, deposit, atMint, key, shareMintKey, reserveKey,
    (lookup_restrict owned).trans fresh, withMint, first, withReserve, second, offset, rfl⟩

theorem CloseVault.alone {a : CloseVault} (ran : CloseVault.handler c a = .ok c') :
    c.Alone (fun d => CloseVault.handler d a) c' a.vaultState := by
  simp only [CloseVault.handler, bind_eq_ok, require_eq_ok, pure_eq_ok, exists_const] at ran
  obtain ⟨v, vault, m, atMint, t, reserve, admin, retired, registry, empty, closed, closes, revoked, revokes,
    rfl⟩ := ran
  have owned := Pubkey.partOf_vaultState (Chain.vaultAt_eq_ok.mp vault).2.2
  refine ⟨owned, ?_, ?_⟩
  · exact ⟨beyond_erase owned, fun _ _ => rfl, fun _ _ => rfl, rfl, fun _ _ => rfl, fun _ _ => rfl, rfl, rfl,
      Or.inl rfl⟩
  · simp only [CloseVault.handler, bind_eq_ok, require_eq_ok, pure_eq_ok, exists_const]
    refine ⟨v, (Chain.restrict_vaultAt owned _).trans vault, m, atMint, t, reserve, admin, retired, registry, empty,
      closed, closes, revoked, revokes, ?_⟩
    simp only [Chain.restrict, restrict_erase]

theorem ShareTokenMetadata.alone {a : ShareTokenMetadata} {program : MetadataProgram} {call : MetadataCall}
    (ran : a.invoke c program call = .ok c') : c.Alone (fun d => a.invoke d program call) c' a.vaultState := by
  obtain ⟨⟨v, valid⟩, answered, rfl⟩ := ShareTokenMetadata.invoke_eq_ok.mp ran
  have owned := Pubkey.partOf_vaultState valid.key
  refine ⟨owned, ?_, ShareTokenMetadata.invoke_eq_ok.mpr ⟨⟨v, ?_⟩, answered, rfl⟩⟩
  · exact ⟨fun _ _ => rfl, fun _ _ => rfl, fun _ _ => rfl, rfl, fun _ _ => rfl, fun _ _ => rfl, rfl, rfl, Or.inl rfl⟩
  · exact { valid with vault := (lookup_restrict owned).trans valid.vault }

end Vault

section Queue
variable {c c' : Chain} {k : Pubkey}

/-- A step of the queue program reports one event of its queue. -/
theorem Chain.alone_queue {handler : Chain → Result Chain} {bank : Bank} {vaults : Store Pubkey VaultState}
    {queues : Store Pubkey WithdrawalQueue} {requests : Store Pubkey WithdrawalRequest} {e : QueueEvent}
    {queue : Pubkey} (vaultOwned : k.partOf k = true) (owned : k.partOf queue = true) (reported : e.queue = queue)
    (vaultsBeyond : ∀ x, k.partOf x = false → vaults.lookup x = c.vaults.lookup x)
    (queuesBeyond : ∀ x, k.partOf x = false → queues.lookup x = c.queues.lookup x)
    (requestsBeyond : ∀ x, k.partOf x = false → requests.lookup x = c.requests.lookup x)
    (replay : handler (c.restrict k) = .ok { c.restrict k with
      bank := bank
      vaults := KeyedStore.restrict k.partOf vaults
      queues := KeyedStore.restrict k.partOf queues
      requests := KeyedStore.restrict k.partOf requests
      log := e :: (c.restrict k).log }) :
    c.Alone handler { c with
      bank := bank
      vaults := vaults
      queues := queues
      requests := requests
      log := e :: c.log } k := by
  subst reported
  have kept : (e :: c.log).filter (fun e => k.partOf e.queue) = e :: c.log.filter fun e => k.partOf e.queue :=
    List.filter_cons_of_pos owned
  refine ⟨vaultOwned, ?_, ?_⟩
  · exact ⟨vaultsBeyond, fun _ _ => rfl, fun _ _ => rfl, rfl, queuesBeyond, requestsBeyond, rfl, rfl,
      Or.inr ⟨e, rfl, owned⟩⟩
  · rw [replay]
    simp only [Chain.restrict, kept]

theorem Chain.restrict_queueOfVault {queue : Pubkey} (vaultOwned : k.partOf k = true)
    (queueOwned : k.partOf queue = true) : (c.restrict k).queueOfVault queue k = c.queueOfVault queue k := by
  simp only [Chain.queueOfVault, Chain.queueAt, fetch, Chain.restrict, lookup_restrict vaultOwned,
    lookup_restrict queueOwned]

theorem Chain.restrict_requestAt {queue request : Pubkey} (owned : k.partOf request = true) :
    (c.restrict k).requestAt request queue = c.requestAt request queue := by
  simp only [Chain.requestAt, fetch, Chain.restrict, lookup_restrict owned]

/-- A request account that passes its constraints is part of the vault of its queue. -/
theorem Chain.requestAt_owned {request queue : Pubkey} {r : WithdrawalRequest}
    (found : c.requestAt request queue = .ok r) (key : queue = .withdrawalQueue k) : k.partOf request = true := by
  obtain ⟨_, derived, here⟩ := Chain.requestAt_eq_ok.mp found
  exact Pubkey.partOf_withdrawalRequest ((here.trans key) ▸ derived)

/-- A queue that passes its constraints beside a vault belongs to it. -/
theorem Chain.Placed.queueOfVault {queue : Pubkey} {q : WithdrawalQueue} {v : VaultState} (placed : c.Placed)
    (found : c.queueOfVault queue k = .ok (q, v)) : k.partOf k = true :=
  placed.vaults _ _ (Chain.queueOfVault_eq_ok.mp found).2.2.2

theorem InitializeQueue.alone {a : InitializeQueue} {cooldownSeconds : Nat}
    (placed : c.Placed) (ran : InitializeQueue.handler c a cooldownSeconds = .ok c') :
    c.Alone (fun d => InitializeQueue.handler d a cooldownSeconds) c' a.vaultState := by
  simp only [InitializeQueue.handler, bind_eq_ok, fetch_eq_ok, require_eq_ok, pure_eq_ok, exists_const] at ran
  obtain ⟨v, vault, key, fresh, withShares, shares, withAssets, assets, admin, depositKey, shareKey, d, atDeposit, m,
    atShare, u, deposit, u', share, q, opened, rfl⟩ := ran
  have vaultOwned := placed.vaults _ _ vault
  have owned := Pubkey.partOf_withdrawalQueue key
  refine Chain.alone_queue vaultOwned owned rfl (fun _ _ => rfl) (beyond_insert owned q) (fun _ _ => rfl) ?_
  rw [restrict_insert owned]
  simp only [InitializeQueue.handler, bind_eq_ok, fetch_eq_ok, require_eq_ok, pure_eq_ok, exists_const]
  exact ⟨v, (lookup_restrict vaultOwned).trans vault, key, (lookup_restrict owned).trans fresh, withShares, shares,
    withAssets, assets, admin, depositKey, shareKey, d, atDeposit, m, atShare, u, deposit, u', share, q, opened, rfl⟩

theorem QueueAdmin.update_alone {a : QueueAdmin} {change : WithdrawalQueue → Result WithdrawalQueue}
    (placed : c.Placed) (ran : a.update c change = .ok c') :
    c.Alone (fun d => a.update d change) c' a.vaultState := by
  simp only [QueueAdmin.update, bind_eq_ok, Prod.exists, pure_eq_ok] at ran
  obtain ⟨q, v, found, u, admin, q', changed, rfl⟩ := ran
  have vaultOwned := placed.queueOfVault found
  have owned := Pubkey.partOf_withdrawalQueue (Chain.queueOfVault_eq_ok.mp found).2.1
  refine Chain.alone_queue vaultOwned owned rfl (fun _ _ => rfl) (beyond_insert owned q') (fun _ _ => rfl) ?_
  rw [restrict_insert owned]
  simp only [QueueAdmin.update, bind_eq_ok, Prod.exists, pure_eq_ok]
  exact ⟨q, v, (Chain.restrict_queueOfVault vaultOwned owned).trans found, u, admin, q', changed, rfl⟩

theorem RequestWithdrawal.alone {a : RequestWithdrawal} {requestId shares minAssetsOut : Nat} {finalizer : Pubkey}
    (placed : c.Placed)
    (ran : RequestWithdrawal.handler c a requestId shares minAssetsOut finalizer = .ok c') :
    c.Alone (fun d => RequestWithdrawal.handler d a requestId shares minAssetsOut finalizer) c' a.vaultState := by
  simp only [RequestWithdrawal.handler, bind_eq_ok, Prod.exists, fetch_eq_ok, require_eq_ok, pure_eq_ok,
    exists_const] at ran
  obtain ⟨q, v, found, hasOne, t, source, s, recipient, key, fresh, attached, positive, u, valid, q', sequence, opened,
    r, written, escrowed, escrows, rfl⟩ := ran
  have vaultOwned := placed.queueOfVault found
  have queueKey := (Chain.queueOfVault_eq_ok.mp found).2.1
  have owned := Pubkey.partOf_withdrawalQueue queueKey
  have requestOwned := Pubkey.partOf_withdrawalRequest (queueKey ▸ key)
  have stored : r.queue = a.queue := by
    rw [WithdrawalRequest.schedule_eq_ok written]
  refine Chain.alone_queue vaultOwned owned stored (fun _ _ => rfl) (beyond_insert owned q')
    (beyond_insert requestOwned r) ?_
  rw [restrict_insert owned, restrict_insert requestOwned]
  simp only [RequestWithdrawal.handler, bind_eq_ok, Prod.exists, fetch_eq_ok, require_eq_ok, pure_eq_ok, exists_const]
  exact ⟨q, v, (Chain.restrict_queueOfVault vaultOwned owned).trans found, hasOne, t, source, s, recipient, key,
    (lookup_restrict requestOwned).trans fresh, attached, positive, u, valid, q', sequence, opened, r, written,
    escrowed, escrows, rfl⟩

theorem ExpediteRequest.alone {a : ExpediteRequest} {expectedSequence : Nat} (placed : c.Placed)
    (ran : ExpediteRequest.handler c a expectedSequence = .ok c') :
    c.Alone (fun d => ExpediteRequest.handler d a expectedSequence) c' a.vaultState := by
  simp only [ExpediteRequest.handler, bind_eq_ok, Prod.exists, pure_eq_ok] at ran
  obtain ⟨q, v, found, r, request, u, authority, r', previous, expedited, rfl⟩ := ran
  have vaultOwned := placed.queueOfVault found
  have queueKey := (Chain.queueOfVault_eq_ok.mp found).2.1
  have owned := Pubkey.partOf_withdrawalQueue queueKey
  have requestOwned := Chain.requestAt_owned request queueKey
  have stored : r'.queue = a.queue := by
    simp only [expediteOne, bind_eq_ok, require_eq_ok, pure_eq_ok, Prod.mk.injEq, exists_const] at expedited
    obtain ⟨_, _, _, rfl, _⟩ := expedited
    exact (Chain.requestAt_eq_ok.mp request).2.2
  refine Chain.alone_queue vaultOwned owned stored (fun _ _ => rfl) (fun _ _ => rfl) (beyond_insert requestOwned r') ?_
  rw [restrict_insert requestOwned]
  simp only [ExpediteRequest.handler, bind_eq_ok, Prod.exists, pure_eq_ok]
  exact ⟨q, v, (Chain.restrict_queueOfVault vaultOwned owned).trans found, r,
    (Chain.restrict_requestAt requestOwned).trans request, u, authority, r', previous, expedited, rfl⟩

theorem CancelWithdrawal.alone {a : CancelWithdrawal} {expectedSequence : Nat} (placed : c.Placed)
    (key : a.queue = .withdrawalQueue k) (ran : CancelWithdrawal.handler c a expectedSequence = .ok c') :
    c.Alone (fun d => CancelWithdrawal.handler d a expectedSequence) c' k := by
  obtain ⟨q, r, returned, spec, rfl⟩ := CancelWithdrawal.handler_eq_ok.mp ran
  have vaultOwned : k.partOf k = true := by
    cases key.symm.trans spec.queueKey
    exact placed.queues _ _ spec.queue
  have owned := Pubkey.partOf_withdrawalQueue key
  have requestOwned := Pubkey.partOf_withdrawalRequest ((spec.requestQueue.trans key) ▸ spec.key)
  refine Chain.alone_queue vaultOwned owned spec.requestQueue (fun _ _ => rfl) (beyond_insert owned _)
    (beyond_erase requestOwned) ?_
  rw [restrict_insert owned, restrict_erase]
  refine CancelWithdrawal.handler_eq_ok.mpr ⟨q, r, returned, ?_, rfl⟩
  exact { spec with
    queue := (lookup_restrict owned).trans spec.queue
    request := (lookup_restrict requestOwned).trans spec.request }

theorem SweepEscrowShares.alone {a : SweepEscrowShares} (placed : c.Placed)
    (ran : SweepEscrowShares.handler c a = .ok c') :
    c.Alone (fun d => SweepEscrowShares.handler d a) c' a.vaultState := by
  obtain ⟨q, v, escrow, swept, spec, rfl⟩ := SweepEscrowShares.handler_eq_ok.mp ran
  have vaultOwned := placed.vaults _ _ spec.vault
  have owned := Pubkey.partOf_withdrawalQueue spec.queueKey
  refine Chain.alone_queue vaultOwned owned rfl (fun _ _ => rfl) (fun _ _ => rfl) (fun _ _ => rfl) ?_
  refine SweepEscrowShares.handler_eq_ok.mpr ⟨q, v, escrow, swept, ?_, rfl⟩
  exact { spec with
    queue := (lookup_restrict owned).trans spec.queue
    vault := (lookup_restrict vaultOwned).trans spec.vault }

theorem FinalizeWithdrawal.alone {a : FinalizeWithdrawal} {expectedSequence : Nat}
    (ran : FinalizeWithdrawal.handler c a expectedSequence = .ok c') :
    c.Alone (fun d => FinalizeWithdrawal.handler d a expectedSequence) c' a.vaultState := by
  obtain ⟨q, r, recipient, escrow, escrow', v, m, assets, fees, paid, forwarded, spec, rfl⟩ :=
    FinalizeWithdrawal.handler_eq_ok.mp ran
  have vaultOwned : a.vaultState.partOf a.vaultState = true := Pubkey.partOf_vaultState spec.redeem.valid.key
  have owned := Pubkey.partOf_withdrawalQueue spec.valid.queueKey
  have requestOwned :=
    Pubkey.partOf_withdrawalRequest ((spec.valid.requestQueue.trans spec.valid.queueKey) ▸ spec.valid.key)
  obtain ⟨w, vault⟩ := spec.valid.vault
  have valid : a.Valid (c.restrict a.vaultState) q r recipient escrow := { spec.valid with
    queue := (lookup_restrict owned).trans spec.valid.queue
    vault := ⟨w, (lookup_restrict vaultOwned).trans vault⟩
    request := (lookup_restrict requestOwned).trans spec.valid.request }
  have redeemValid : a.redeem.Valid (c.restrict a.vaultState) v m :=
    { spec.redeem.valid with vault := (lookup_restrict vaultOwned).trans spec.redeem.valid.vault }
  have redeem : Redeem.Ran (c.restrict a.vaultState) a.redeem r.shares 0 v m assets fees paid :=
    { spec.redeem with valid := redeemValid }
  refine Chain.alone_queue vaultOwned owned spec.valid.requestQueue (beyond_insert vaultOwned _) (beyond_insert owned _)
    (beyond_erase requestOwned) ?_
  rw [restrict_insert vaultOwned, restrict_insert owned, restrict_erase]
  refine FinalizeWithdrawal.handler_eq_ok.mpr ⟨q, r, recipient, escrow, escrow', v, m, assets, fees, paid, forwarded,
    ?_, rfl⟩
  exact { spec with valid := valid, redeem := redeem }

theorem ReleaseVault.alone {a : ReleaseVault} (ran : ReleaseVault.handler c a = .ok c') :
    c.Alone (fun d => ReleaseVault.handler d a) c' a.vaultState := by
  simp only [ReleaseVault.handler, bind_eq_ok, Prod.exists, require_eq_ok, pure_eq_ok, exists_const] at ran
  obtain ⟨q, v, found, hasOne, u, admin, detached, detaches, rfl⟩ := ran
  have moved : c.Alone (fun d => DetachWithdrawalQueue.handler d ⟨a.vaultState, a.depositMint, a.admin⟩ a.queue)
      detached a.vaultState := VaultAdmin.set_alone detaches
  obtain ⟨_, v', _, key, _, _, rfl⟩ := VaultAdmin.update_eq_ok detaches
  have vaultOwned : a.vaultState.partOf a.vaultState = true := Pubkey.partOf_vaultState key
  have owned := Pubkey.partOf_withdrawalQueue (Chain.queueOfVault_eq_ok.mp found).2.1
  refine Chain.alone_queue vaultOwned owned rfl (beyond_insert vaultOwned v') (fun _ _ => rfl) (fun _ _ => rfl) ?_
  simp only [ReleaseVault.handler, bind_eq_ok, Prod.exists, require_eq_ok, pure_eq_ok, exists_const]
  exact ⟨q, v, (Chain.restrict_queueOfVault vaultOwned owned).trans found, hasOne, u, admin, _, moved.replay, rfl⟩

end Queue

section Step
variable {c c' : Chain} {i : Instruction} {k : Pubkey}

theorem Step.of_alone {handler : Chain → Result Chain} {named : Pubkey} (taken : Step c i c')
    (concerns : some named = some k) (alone : c.Alone handler c' named)
    (executes : ∀ d : Chain, d.execute i = handler d) :
    k.partOf k = true ∧ c.Beyond c' k ∧ Step (c.restrict k) i (c'.restrict k) := by
  cases concerns
  exact ⟨alone.derived, alone.beyond, .of_executed taken.signed ((executes _).trans alone.replay)⟩

/-- An instruction acts within the vault it names, and does so in the same way where there is no other. -/
theorem Step.alone (taken : Step c i c') (placed : c.Placed) (concerns : i.concerns = some k) :
    k.partOf k = true ∧ c.Beyond c' k ∧ Step (c.restrict k) i (c'.restrict k) := by
  have ran := taken.executed
  cases i with
  | vault i =>
    cases i with
    | initializeConfig | setConfigAuthority | overrideConfigAuthority => cases concerns
    | initializeVault => exact taken.of_alone concerns (Initialize.alone ran) fun _ => rfl
    | deposit => exact taken.of_alone concerns (Deposit.alone ran) fun _ => rfl
    | depositChecked => exact taken.of_alone concerns (Deposit.alone ran) fun _ => rfl
    | redeem => exact taken.of_alone concerns (Redeem.alone ran) fun _ => rfl
    | redeemChecked => exact taken.of_alone concerns (Redeem.alone ran) fun _ => rfl
    | operatorWithdraw => exact taken.of_alone concerns (OperatorWithdraw.alone ran) fun _ => rfl
    | operatorDeposit => exact taken.of_alone concerns (OperatorDeposit.alone ran) fun _ => rfl
    | operatorUpdateAum => exact taken.of_alone concerns (OperatorUpdateAum.alone ran) fun _ => rfl
    | registerSubaccount => exact taken.of_alone concerns (RegisterSubaccount.alone ran) fun _ => rfl
    | settleSubaccountLoss => exact taken.of_alone concerns (SettleSubaccountLoss.alone ran) fun _ => rfl
    | deregisterSubaccount => exact taken.of_alone concerns (DeregisterSubaccount.alone ran) fun _ => rfl
    | nominateAdmin => exact taken.of_alone concerns (NominateAdmin.alone ran) fun _ => rfl
    | acceptAdminNomination => exact taken.of_alone concerns (AcceptAdminNomination.alone ran) fun _ => rfl
    | attachWithdrawalQueue => exact taken.of_alone concerns (AttachWithdrawalQueue.alone ran) fun _ => rfl
    | closeVault => exact taken.of_alone concerns (CloseVault.alone ran) fun _ => rfl
    | createShareTokenMetadata => exact taken.of_alone concerns (ShareTokenMetadata.alone ran) fun _ => rfl
    | updateShareTokenMetadata => exact taken.of_alone concerns (ShareTokenMetadata.alone ran) fun _ => rfl
    | setWithdrawalFee | setOperator | setFeeRecipient | setAumLimits | detachWithdrawalQueue | pause | unpause =>
      change VaultAdmin.update _ c _ = _ at ran
      exact taken.of_alone concerns (VaultAdmin.set_alone ran) fun _ => rfl
  | queue i =>
    cases i with
    | initializeQueue => exact taken.of_alone concerns (InitializeQueue.alone placed ran) fun _ => rfl
    | setCooldown a seconds =>
      have ran : SetCooldown.handler c a seconds.toNat = .ok c' := ran
      exact taken.of_alone concerns (QueueAdmin.update_alone placed ran) fun _ => rfl
    | setFulfillmentWindow a seconds =>
      have ran : SetFulfillmentWindow.handler c a seconds.toNat = .ok c' := ran
      exact taken.of_alone concerns (QueueAdmin.update_alone placed ran) fun _ => rfl
    | requestWithdrawal => exact taken.of_alone concerns (RequestWithdrawal.alone placed ran) fun _ => rfl
    | finalizeWithdrawal => exact taken.of_alone concerns (FinalizeWithdrawal.alone ran) fun _ => rfl
    | cancelWithdrawal a =>
      obtain ⟨q, _, _, spec, _⟩ := CancelWithdrawal.handler_eq_ok.mp ran
      have named : a.queue.vaultOf = some k := concerns
      rw [spec.queueKey] at named
      have key := spec.queueKey
      rw [Option.some.inj named] at key
      exact taken.of_alone rfl (CancelWithdrawal.alone placed key ran) fun _ => rfl
    | releaseVault => exact taken.of_alone concerns (ReleaseVault.alone ran) fun _ => rfl
    | sweepEscrowShares => exact taken.of_alone concerns (SweepEscrowShares.alone placed ran) fun _ => rfl
    | expediteRequest => exact taken.of_alone concerns (ExpediteRequest.alone placed ran) fun _ => rfl
  | token | clock | setUpgradeAuthority => cases concerns

/-- An instruction that names no vault touches none, and does not tell how many there are. -/
theorem Step.unconcerned (taken : Step c i c') (concerns : i.concerns = none) :
    (∃ bank config upgradeAuthority clock, c' = { c with
      bank := bank
      config := config
      upgradeAuthority := upgradeAuthority
      clock := clock }) ∧ ∀ k, Step (c.restrict k) i (c'.restrict k) := by
  have ran := taken.executed
  cases i with
  | vault i =>
    cases i with
    | initializeConfig =>
      simp only [Chain.execute, Chain.executeVault, InitializeConfig.handler, bind_eq_ok, require_eq_ok, pure_eq_ok,
        exists_const] at ran
      obtain ⟨upgrade, fresh, authority, rfl⟩ := ran
      refine ⟨⟨_, _, _, _, rfl⟩, fun k => .of_executed taken.signed ?_⟩
      simp only [Chain.execute, Chain.executeVault, InitializeConfig.handler, bind_eq_ok, require_eq_ok, pure_eq_ok,
        exists_const]
      exact ⟨upgrade, fresh, authority, rfl⟩
    | setConfigAuthority =>
      simp only [Chain.execute, Chain.executeVault, SetConfigAuthority.handler, bind_eq_ok, require_eq_ok, pure_eq_ok,
        exists_const] at ran
      obtain ⟨config, found, authority, some, rfl⟩ := ran
      refine ⟨⟨_, _, _, _, rfl⟩, fun k => .of_executed taken.signed ?_⟩
      simp only [Chain.execute, Chain.executeVault, SetConfigAuthority.handler, bind_eq_ok, require_eq_ok, pure_eq_ok,
        exists_const]
      exact ⟨config, found, authority, some, rfl⟩
    | overrideConfigAuthority =>
      simp only [Chain.execute, Chain.executeVault, OverrideConfigAuthority.handler, bind_eq_ok, require_eq_ok,
        pure_eq_ok, exists_const] at ran
      obtain ⟨config, found, authority, some, rfl⟩ := ran
      refine ⟨⟨_, _, _, _, rfl⟩, fun k => .of_executed taken.signed ?_⟩
      simp only [Chain.execute, Chain.executeVault, OverrideConfigAuthority.handler, bind_eq_ok, require_eq_ok,
        pure_eq_ok, exists_const]
      exact ⟨config, found, authority, some, rfl⟩
    | _ => cases concerns
  | queue i =>
    cases i with
    | cancelWithdrawal a =>
      obtain ⟨q, _, _, spec, _⟩ := CancelWithdrawal.handler_eq_ok.mp ran
      have named : a.queue.vaultOf = none := concerns
      rw [spec.queueKey] at named
      cases named
    | _ => cases concerns
  | token =>
    simp only [Chain.execute, bind_eq_ok, pure_eq_ok] at ran
    obtain ⟨bank, moved, rfl⟩ := ran
    refine ⟨⟨_, _, _, _, rfl⟩, fun k => .of_executed taken.signed ?_⟩
    simp only [Chain.execute, bind_eq_ok, pure_eq_ok]
    exact ⟨bank, moved, rfl⟩
  | clock =>
    simp only [Chain.execute, bind_eq_ok, require_eq_ok, pure_eq_ok, exists_const] at ran
    obtain ⟨range, rfl⟩ := ran
    refine ⟨⟨_, _, _, _, rfl⟩, fun k => .of_executed taken.signed ?_⟩
    simp only [Chain.execute, bind_eq_ok, require_eq_ok, pure_eq_ok, exists_const]
    exact ⟨range, rfl⟩
  | setUpgradeAuthority =>
    cases pure_eq_ok.mp ran
    exact ⟨⟨_, _, _, _, rfl⟩, fun k => .of_executed taken.signed rfl⟩

end Step

end Upshift
