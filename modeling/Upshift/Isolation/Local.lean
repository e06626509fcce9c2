import Upshift.Lib.Restrict
import Upshift.Signing

namespace Upshift
open Guard KeyedStore

/-- The vault that a derived address is part of: its own, its nomination's, its queue's, a request's or an entry's. -/
def Pubkey.vaultOf : Pubkey → Option Pubkey
  | .vaultState depositMint vaultVersion => some (.vaultState depositMint vaultVersion)
  | .nominatedAdmin depositMint vaultVersion => some (.vaultState depositMint vaultVersion)
  | .subaccount vault _ => some vault
  | .withdrawalQueue vault => some vault
  | .withdrawalRequest (.withdrawalQueue vault) _ _ => some vault
  | _ => none

def Pubkey.partOf (k x : Pubkey) : Bool := x.vaultOf = some k

/-- The vault that an instruction of either program names. A cancellation names it by its queue. -/
def Instruction.concerns : Instruction → Option Pubkey
  | .vault (.initializeConfig ..) | .vault (.setConfigAuthority ..) | .vault (.overrideConfigAuthority ..) => none
  | .vault (.initializeVault a _ _ _ _ _) => some a.vaultState
  | .vault (.deposit a _) | .vault (.depositChecked a _ _) => some a.vaultState
  | .vault (.redeem a _) | .vault (.redeemChecked a _ _) => some a.vaultState
  | .vault (.operatorWithdraw a _) | .vault (.operatorDeposit a _) => some a.vaultState
  | .vault (.operatorUpdateAum a _) => some a.vaultState
  | .vault (.registerSubaccount a _) | .vault (.settleSubaccountLoss a _) => some a.vaultState
  | .vault (.deregisterSubaccount a) => some a.vaultState
  | .vault (.setWithdrawalFee a _) | .vault (.nominateAdmin a _ _) => some a.vaultState
  | .vault (.acceptAdminNomination a) => some a.vaultState
  | .vault (.setOperator a _) | .vault (.setFeeRecipient a _) | .vault (.setAumLimits a _ _) => some a.vaultState
  | .vault (.attachWithdrawalQueue a _) | .vault (.detachWithdrawalQueue a _) => some a.vaultState
  | .vault (.pause a) | .vault (.unpause a) => some a.vaultState
  | .vault (.closeVault a) => some a.vaultState
  | .vault (.createShareTokenMetadata a _ _ _) | .vault (.updateShareTokenMetadata a _ _) => some a.vaultState
  | .queue (.initializeQueue a _) => some a.vaultState
  | .queue (.setCooldown a _) | .queue (.setFulfillmentWindow a _) => some a.vaultState
  | .queue (.requestWithdrawal a _ _ _ _) => some a.vaultState
  | .queue (.finalizeWithdrawal a _) => some a.vaultState
  | .queue (.cancelWithdrawal a _) => a.queue.vaultOf
  | .queue (.releaseVault a) => some a.vaultState
  | .queue (.sweepEscrowShares a) => some a.vaultState
  | .queue (.expediteRequest a _) => some a.vaultState
  | .token _ | .clock _ | .setUpgradeAuthority _ => none

/-- The queue that emitted an event. -/
def QueueEvent.queue : QueueEvent → Pubkey
  | .queueInitialized _ queue _ _ _ _ _ | .queueConfigUpdated _ queue _ _ => queue
  | .withdrawalRequested _ queue _ _ _ _ _ _ _ _ _ _ | .withdrawalFinalized _ queue _ _ _ _ _ _ _ _ => queue
  | .withdrawalCancelled _ queue _ _ _ _ _ _ _ | .withdrawalExpedited _ queue _ _ _ _ _ _ _ => queue
  | .vaultReleased _ queue _ _ | .escrowSwept _ queue _ _ _ => queue

/-- The chain with no vault but the one at `k`: its account, its entries, its nomination, its queue, its
requests and its events, beside all the tokens. -/
def Chain.restrict (c : Chain) (k : Pubkey) : Chain where
  bank := c.bank
  vaults := KeyedStore.restrict k.partOf c.vaults
  subaccounts := KeyedStore.restrict k.partOf c.subaccounts
  nominations := KeyedStore.restrict k.partOf c.nominations
  config := c.config
  queues := KeyedStore.restrict k.partOf c.queues
  requests := KeyedStore.restrict k.partOf c.requests
  upgradeAuthority := c.upgradeAuthority
  clock := c.clock
  log := c.log.filter fun e => k.partOf e.queue

/-- Everything but the tokens is the same beyond the vault at `k`. -/
structure Chain.Beyond (c c' : Chain) (k : Pubkey) : Prop where
  vaults : ∀ x, k.partOf x = false → c'.vaults.lookup x = c.vaults.lookup x
  subaccounts : ∀ x, k.partOf x = false → c'.subaccounts.lookup x = c.subaccounts.lookup x
  nominations : ∀ x, k.partOf x = false → c'.nominations.lookup x = c.nominations.lookup x
  config : c'.config = c.config
  queues : ∀ x, k.partOf x = false → c'.queues.lookup x = c.queues.lookup x
  requests : ∀ x, k.partOf x = false → c'.requests.lookup x = c.requests.lookup x
  upgradeAuthority : c'.upgradeAuthority = c.upgradeAuthority
  clock : c'.clock = c.clock
  log : c'.log = c.log ∨ ∃ e, c'.log = e :: c.log ∧ k.partOf e.queue = true

/-- Vaults are at derived addresses, and queues belong to such. -/
structure Chain.Placed (c : Chain) : Prop where
  vaults : ∀ k v, c.vaults.lookup k = some v → k.partOf k = true
  queues : ∀ k q, c.queues.lookup k = some q → q.vaultState.partOf q.vaultState = true

/-- What an instruction of the vault at `k` does: it leaves everything beyond the vault alone, and does the same
where there is no other vault. -/
structure Chain.Alone (handler : Chain → Result Chain) (c c' : Chain) (k : Pubkey) : Prop where
  derived : k.partOf k = true
  beyond : c.Beyond c' k
  replay : handler (c.restrict k) = .ok (c'.restrict k)

section Parts
variable {α : Type} {s : Store Pubkey α} {k x y : Pubkey} {a : α} {c c' : Chain}

theorem beyond_insert (owned : k.partOf y = true) (a : α) :
    ∀ x, k.partOf x = false → (s.insert y a).lookup x = s.lookup x := by
  intro x other
  refine Finmap.lookup_insert_of_ne s ?_
  rintro rfl
  cases owned.symm.trans other

theorem beyond_erase (owned : k.partOf y = true) :
    ∀ x, k.partOf x = false → (s.erase y).lookup x = s.lookup x := by
  intro x other
  refine Finmap.lookup_erase_ne ?_
  rintro rfl
  cases owned.symm.trans other

theorem Pubkey.partOf_vaultState {depositMint : Pubkey} {vaultVersion : Nat}
    (key : k = .vaultState depositMint vaultVersion) : k.partOf k = true := by
  subst key
  exact decide_eq_true rfl

theorem Pubkey.partOf_nominatedAdmin {depositMint : Pubkey} {vaultVersion : Nat}
    (key : k = .vaultState depositMint vaultVersion) (pda : x = .nominatedAdmin depositMint vaultVersion) :
    k.partOf x = true := by
  subst key pda
  exact decide_eq_true rfl

theorem Pubkey.partOf_subaccount {address : Pubkey} (key : x = .subaccount k address) : k.partOf x = true := by
  subst key
  exact decide_eq_true rfl

theorem Pubkey.partOf_withdrawalQueue (key : x = .withdrawalQueue k) : k.partOf x = true := by
  subst key
  exact decide_eq_true rfl

theorem Pubkey.partOf_withdrawalRequest {owner : Pubkey} {requestId : Nat}
    (key : x = .withdrawalRequest (.withdrawalQueue k) owner requestId) : k.partOf x = true := by
  subst key
  exact decide_eq_true rfl

end Parts

section Accounts
variable {c c' : Chain} {k : Pubkey}

/-- A step that rewrites the tokens, the vault account and the entries of its vault. -/
theorem Chain.alone_vault {handler : Chain → Result Chain} {bank : Bank} {v : VaultState}
    {subaccounts : Store Pubkey Subaccount} (owned : k.partOf k = true)
    (entries : ∀ x, k.partOf x = false → subaccounts.lookup x = c.subaccounts.lookup x)
    (replay : handler (c.restrict k) = .ok { c.restrict k with
      bank := bank
      vaults := (c.restrict k).vaults.insert k v
      subaccounts := KeyedStore.restrict k.partOf subaccounts }) :
    c.Alone handler { c with
      bank := bank
      vaults := c.vaults.insert k v
      subaccounts := subaccounts } k := by
  refine ⟨owned, ?_, ?_⟩
  · exact ⟨beyond_insert owned v, entries, fun _ _ => rfl, rfl, fun _ _ => rfl, fun _ _ => rfl, rfl, rfl, Or.inl rfl⟩
  · rw [replay]
    simp only [Chain.restrict, restrict_insert owned]

theorem Chain.restrict_vaultAt (owned : k.partOf k = true) (depositMint : Pubkey) :
    (c.restrict k).vaultAt k depositMint = c.vaultAt k depositMint := by
  simp only [Chain.vaultAt, fetch, Chain.restrict, lookup_restrict owned]

theorem VaultAdmin.accounts_restrict (a : VaultAdmin) (owned : a.vaultState.partOf a.vaultState = true) :
    a.accounts (c.restrict a.vaultState) = a.accounts c := by
  simp only [VaultAdmin.accounts, Chain.restrict_vaultAt owned]

/-- A setter, whose change may look at the accounts of its own vault. -/
theorem VaultAdmin.update_alone {a : VaultAdmin} {change : Chain → VaultState → Result VaultState}
    (same : ∀ v, change (c.restrict a.vaultState) v = change c v) (ran : a.update c (change c) = .ok c') :
    c.Alone (fun d => a.update d (change d)) c' a.vaultState := by
  simp only [VaultAdmin.update, bind_eq_ok, pure_eq_ok] at ran
  obtain ⟨v, accounts, v', changed, rfl⟩ := ran
  have owned := Pubkey.partOf_vaultState (VaultAdmin.accounts_eq_ok accounts).2.1
  refine Chain.alone_vault owned (fun _ _ => rfl) ?_
  simp only [VaultAdmin.update, bind_eq_ok, pure_eq_ok]
  exact ⟨v, (VaultAdmin.accounts_restrict a owned).trans accounts, v', (same v).trans changed, rfl⟩

theorem VaultAdmin.set_alone {a : VaultAdmin} {change : VaultState → Result VaultState}
    (ran : a.update c change = .ok c') : c.Alone (fun d => a.update d change) c' a.vaultState :=
  @VaultAdmin.update_alone c c' a (fun _ => change) (fun _ => rfl) ran

end Accounts

end Upshift
