import Upshift.Lib.History
import Upshift.Queue.Admin
import Upshift.Queue.Finalize
import Upshift.Vault.Deposit
import Upshift.Vault.Lifecycle
import Upshift.Vault.Metadata
import Upshift.Vault.Registry

namespace Upshift
open Guard KeyedStore

/-- The instructions of the vault program. How the token metadata program answers is part of the
two that call it. -/
inductive VaultInstruction
  | initializeConfig (upgradeAuthority authority : Pubkey)
  | setConfigAuthority (authority newAuthority : Pubkey)
  | overrideConfigAuthority (upgradeAuthority newAuthority : Pubkey)
  | initializeVault (a : Initialize) (admin operator feeRecipient : Pubkey) (vaultVersion : UInt8)
      (shareOffset : UInt64)
  | deposit (a : Deposit) (amount : UInt64)
  | depositChecked (a : Deposit) (amount minSharesOut : UInt64)
  | redeem (a : Redeem) (shares : UInt64)
  | redeemChecked (a : Redeem) (shares minAssetsOut : UInt64)
  | operatorWithdraw (a : OperatorTransfer) (amount : UInt64)
  | operatorDeposit (a : OperatorTransfer) (amount : UInt64)
  | operatorUpdateAum (a : OperatorUpdateAum) (newAum : UInt64)
  | registerSubaccount (a : SubaccountAdmin) (address : Pubkey)
  | settleSubaccountLoss (a : SubaccountAdmin) (amount : UInt64)
  | deregisterSubaccount (a : SubaccountAdmin)
  | setWithdrawalFee (a : VaultAdmin) (newFee : UInt32)
  | nominateAdmin (a : VaultAdmin) (nominatedAdminPda nominatedAdmin : Pubkey)
  | acceptAdminNomination (a : AcceptAdminNomination)
  | setOperator (a : VaultAdmin) (newOperator : Pubkey)
  | setFeeRecipient (a : VaultAdmin) (newFeeRecipient : Pubkey)
  | setAumLimits (a : VaultAdmin) (increaseLimit decreaseLimit : UInt32)
  | attachWithdrawalQueue (a : VaultAdmin) (queue : Pubkey)
  | detachWithdrawalQueue (a : VaultAdmin) (queue : Pubkey)
  | pause (a : VaultAdmin)
  | unpause (a : VaultAdmin)
  | closeVault (a : CloseVault)
  | createShareTokenMetadata (a : ShareTokenMetadata) (payer : Pubkey) (data : DataV2) (program : MetadataProgram)
  | updateShareTokenMetadata (a : ShareTokenMetadata) (data : DataV2) (program : MetadataProgram)

inductive QueueInstruction
  | initializeQueue (a : InitializeQueue) (cooldownSeconds : UInt64)
  | setCooldown (a : QueueAdmin) (seconds : UInt64)
  | setFulfillmentWindow (a : QueueAdmin) (seconds : UInt64)
  | requestWithdrawal (a : RequestWithdrawal) (requestId shares minAssetsOut : UInt64)
      (finalizer : Pubkey)
  | finalizeWithdrawal (a : FinalizeWithdrawal) (expectedSequence : UInt64)
  | cancelWithdrawal (a : CancelWithdrawal) (expectedSequence : UInt64)
  | releaseVault (a : ReleaseVault)
  | sweepEscrowShares (a : SweepEscrowShares)
  | expediteRequest (a : ExpediteRequest) (expectedSequence : UInt64)

/-- One step of the world: an instruction of either program, a direct call of the token program,
a reading of the clock or a change of the upgrade authority. -/
inductive Instruction
  | vault (i : VaultInstruction)
  | queue (i : QueueInstruction)
  | token (i : TokenInstruction)
  | clock (now : Int)
  | setUpgradeAuthority (newAuthority : Option Pubkey)

def VaultInstruction.signers : VaultInstruction → List Pubkey
  | .initializeConfig upgradeAuthority _ => [upgradeAuthority]
  | .setConfigAuthority authority _ => [authority]
  | .overrideConfigAuthority upgradeAuthority _ => [upgradeAuthority]
  | .initializeVault a _ _ _ _ _ => [a.signer]
  | .deposit a _ => [a.signer]
  | .depositChecked a _ _ => [a.signer]
  | .redeem a _ => [a.signer]
  | .redeemChecked a _ _ => [a.signer]
  | .operatorWithdraw a _ => [a.operator]
  | .operatorDeposit a _ => [a.operator]
  | .operatorUpdateAum a _ => [a.operator]
  | .registerSubaccount a _ => [a.admin]
  | .settleSubaccountLoss a _ => [a.admin]
  | .deregisterSubaccount a => [a.admin]
  | .setWithdrawalFee a _ => [a.admin]
  | .nominateAdmin a _ _ => [a.admin]
  | .acceptAdminNomination a => [a.newAdmin]
  | .setOperator a _ => [a.admin]
  | .setFeeRecipient a _ => [a.admin]
  | .setAumLimits a _ _ => [a.admin]
  | .attachWithdrawalQueue a _ => [a.admin]
  | .detachWithdrawalQueue a queue => [a.admin, queue]
  | .pause a => [a.admin]
  | .unpause a => [a.admin]
  | .closeVault a => [a.admin]
  | .createShareTokenMetadata a payer _ _ => [a.admin, payer]
  | .updateShareTokenMetadata a _ _ => [a.admin]

def QueueInstruction.signers : QueueInstruction → List Pubkey
  | .initializeQueue a _ => [a.admin]
  | .setCooldown a _ => [a.admin]
  | .setFulfillmentWindow a _ => [a.admin]
  | .requestWithdrawal a _ _ _ _ => [a.owner]
  | .finalizeWithdrawal a _ => [a.finalizer]
  | .cancelWithdrawal a _ => [a.owner]
  | .releaseVault a => [a.admin]
  | .sweepEscrowShares a => [a.admin]
  | .expediteRequest a _ => [a.authority]

def Instruction.signers : Instruction → List Pubkey
  | .vault i => i.signers
  | .queue i => i.signers
  | .token i => i.signers
  | .clock _ => []
  | .setUpgradeAuthority _ => []

def Chain.executeVault (c : Chain) : VaultInstruction → Result Chain
  | .initializeConfig upgradeAuthority authority => InitializeConfig.handler c upgradeAuthority authority
  | .setConfigAuthority authority newAuthority => SetConfigAuthority.handler c authority newAuthority
  | .overrideConfigAuthority upgradeAuthority newAuthority =>
    OverrideConfigAuthority.handler c upgradeAuthority newAuthority
  | .initializeVault a admin operator feeRecipient vaultVersion shareOffset =>
    Initialize.handler c a admin operator feeRecipient vaultVersion.toNat shareOffset.toNat
  | .deposit a amount => Deposit.handler c a amount.toNat
  | .depositChecked a amount minSharesOut => Deposit.handlerChecked c a amount.toNat minSharesOut.toNat
  | .redeem a shares => Redeem.handler c a shares.toNat
  | .redeemChecked a shares minAssetsOut => Redeem.handlerChecked c a shares.toNat minAssetsOut.toNat
  | .operatorWithdraw a amount => OperatorWithdraw.handler c a amount.toNat
  | .operatorDeposit a amount => OperatorDeposit.handler c a amount.toNat
  | .operatorUpdateAum a newAum => OperatorUpdateAum.handler c a newAum.toNat
  | .registerSubaccount a address => RegisterSubaccount.handler c a address
  | .settleSubaccountLoss a amount => SettleSubaccountLoss.handler c a amount.toNat
  | .deregisterSubaccount a => DeregisterSubaccount.handler c a
  | .setWithdrawalFee a newFee => SetWithdrawalFee.handler c a newFee.toNat
  | .nominateAdmin a nominatedAdminPda nominatedAdmin =>
    NominateAdmin.handler c a nominatedAdminPda nominatedAdmin
  | .acceptAdminNomination a => AcceptAdminNomination.handler c a
  | .setOperator a newOperator => SetOperator.handler c a newOperator
  | .setFeeRecipient a newFeeRecipient => SetFeeRecipient.handler c a newFeeRecipient
  | .setAumLimits a increaseLimit decreaseLimit =>
    SetAumLimits.handler c a increaseLimit.toNat decreaseLimit.toNat
  | .attachWithdrawalQueue a queue => AttachWithdrawalQueue.handler c a queue
  | .detachWithdrawalQueue a queue => DetachWithdrawalQueue.handler c a queue
  | .pause a => Pause.handler c a
  | .unpause a => Unpause.handler c a
  | .closeVault a => CloseVault.handler c a
  | .createShareTokenMetadata a payer data program => CreateShareTokenMetadata.handler c a payer data program
  | .updateShareTokenMetadata a data program => UpdateShareTokenMetadata.handler c a data program

def Chain.executeQueue (c : Chain) : QueueInstruction → Result Chain
  | .initializeQueue a cooldownSeconds => InitializeQueue.handler c a cooldownSeconds.toNat
  | .setCooldown a seconds => SetCooldown.handler c a seconds.toNat
  | .setFulfillmentWindow a seconds => SetFulfillmentWindow.handler c a seconds.toNat
  | .requestWithdrawal a requestId shares minAssetsOut finalizer =>
    RequestWithdrawal.handler c a requestId.toNat shares.toNat minAssetsOut.toNat finalizer
  | .finalizeWithdrawal a expectedSequence => FinalizeWithdrawal.handler c a expectedSequence.toNat
  | .cancelWithdrawal a expectedSequence => CancelWithdrawal.handler c a expectedSequence.toNat
  | .releaseVault a => ReleaseVault.handler c a
  | .sweepEscrowShares a => SweepEscrowShares.handler c a
  | .expediteRequest a expectedSequence => ExpediteRequest.handler c a expectedSequence.toNat

def Chain.execute (c : Chain) : Instruction → Result Chain
  | .vault i => c.executeVault i
  | .queue i => c.executeQueue i
  | .token i => do
    let bank ← c.bank.execute i
    return { c with bank := bank }
  | .clock now => do
    require (i64Min ≤ now ∧ now ≤ i64Max) .arithmetic
    return { c with clock := now }
  | .setUpgradeAuthority newAuthority => return { c with upgradeAuthority := newAuthority }

/-- A transaction of one instruction: every signature it names must be one that can be given,
and a failure leaves the chain as it was. -/
def Chain.process (c : Chain) (i : Instruction) : Result Chain := do
  require (i.signers.all Pubkey.canSign) (.anchor .accountNotSigner)
  c.execute i

/-- A step of the system while no mint's issuer uses a power of its own: see `WideStep` for freezing and for permanent
delegates, and `plain_runs` for what this leaves out. -/
def Step (c : Chain) (i : Instruction) (c' : Chain) : Prop := c.process i = .ok c'

def Chain.Genesis (c : Chain) : Prop := ∃ upgradeAuthority, c = .genesis upgradeAuthority

/-- The vaults as older layouts stored them, each at the address it still has. -/
def StoredBefore (vaults vaults₀ : Store Pubkey VaultState) : Prop :=
  ∀ k, Option.Rel VaultState.StoredBefore (vaults.lookup k) (vaults₀.lookup k)

/-- The chains that runs start from: those that come about from nothing, except that some vaults may still be stored
as an older layout had them. -/
def Chain.Initial (c : Chain) : Prop :=
  ∃ c₀ vaults, History.Reachable Step Chain.Genesis c₀ ∧ StoredBefore vaults c₀.vaults ∧ c = { c₀ with vaults := vaults }

abbrev Reachable (c : Chain) : Prop := History.Reachable Step Chain.Initial c

theorem VaultState.StoredBefore.refl (v : VaultState) : v.StoredBefore v := ⟨Or.inl rfl, Or.inl rfl, rfl⟩

section Stored
variable {vaults vaults₀ : Store Pubkey VaultState} {k : Pubkey} {v v₀ : VaultState}

theorem StoredBefore.refl (vaults : Store Pubkey VaultState) : StoredBefore vaults vaults := by
  intro k
  cases vaults.lookup k with
  | none => exact .none
  | some v => exact .some (.refl v)

/-- Nothing is stored before that is not there now, and the other way round. -/
theorem StoredBefore.found (before : StoredBefore vaults vaults₀) (vault : vaults.lookup k = some v) :
    ∃ v₀, vaults₀.lookup k = some v₀ ∧ v.StoredBefore v₀ := by
  have related := before k
  rw [vault] at related
  cases found : vaults₀.lookup k with
  | none =>
    rw [found] at related
    cases related
  | some v₀ =>
    rw [found] at related
    cases related with
    | some stored => exact ⟨v₀, rfl, stored⟩

theorem StoredBefore.still (before : StoredBefore vaults vaults₀) (vault : vaults₀.lookup k = some v₀) :
    ∃ v, vaults.lookup k = some v ∧ v.StoredBefore v₀ := by
  have related := before k
  rw [vault] at related
  cases found : vaults.lookup k with
  | none =>
    rw [found] at related
    cases related
  | some v =>
    rw [found] at related
    cases related with
    | some stored => exact ⟨v, rfl, stored⟩

end Stored

theorem Chain.Genesis.initial {c : Chain} (first : c.Genesis) : c.Initial :=
  ⟨c, c.vaults, ⟨c, [], first, .start⟩, .refl _, rfl⟩

/-- A vault of the default offset may be one that never stored it. -/
theorem Chain.Initial.unstored {c : Chain} {k : Pubkey} {v : VaultState}
    (reach : History.Reachable Step Chain.Genesis c) (vault : c.vaults.lookup k = some v)
    (offset : v.shareOffset = extraShares) :
    Chain.Initial { c with vaults := c.vaults.insert k { v with shareOffset := 0 } } := by
  refine ⟨c, _, reach, fun x => ?_, rfl⟩
  by_cases here : x = k
  · subst here
    rw [Finmap.lookup_insert, vault]
    exact .some ⟨Or.inr ⟨rfl, offset⟩, Or.inl rfl, rfl⟩
  · rw [Finmap.lookup_insert_of_ne _ here]
    exact StoredBefore.refl c.vaults x

/-- An invariant of the runs from nothing that does not depend on how a vault was stored is one of all runs. -/
theorem Reachable.preserves {c : Chain} {I : Chain → Prop} (reach : Reachable c) (start : ∀ authority, I (.genesis authority))
    (stored : ∀ t vaults, StoredBefore vaults t.vaults → I t → I { t with vaults := vaults })
    (kept : ∀ t i u, Reachable t → I t → Step t i u → I u) : I c := by
  refine reach.invariant ?_ kept
  rintro _ ⟨c₀, vaults, ⟨s, history, ⟨authority, rfl⟩, run⟩, before, rfl⟩
  refine stored c₀ vaults before ?_
  clear before
  induction run with
  | start => exact start authority
  | next previous taken ih =>
    exact kept _ _ _ ⟨_, _, Chain.Genesis.initial ⟨authority, rfl⟩, previous⟩ ih taken

/-- The chain after a transaction. A refused one leaves it as it was. -/
def Chain.next (c : Chain) (i : Instruction) : Chain :=
  match c.process i with
  | .ok c' => c'
  | .error _ => c

/-- Whether a transaction would succeed. -/
def Chain.accepts (c : Chain) (i : Instruction) : Bool :=
  match c.process i with
  | .ok _ => true
  | .error _ => false

/-- The error of a refused transaction. Anchor loads all accounts and creates new ones before it looks at the other
constraints, where the definitions here look at one account after the other: of several checks that fail, the code
reported here need not be the program's. -/
def Chain.refusal (c : Chain) (i : Instruction) : Option Error :=
  match c.process i with
  | .ok _ => none
  | .error e => some e

def Chain.runAll (c : Chain) (script : List Instruction) : Chain := script.foldl Chain.next c

/-- The transactions of a script that succeed, each with the chain it found, latest first. -/
def Chain.events (c : Chain) (script : List Instruction) : List (Chain × Instruction) :=
  match script with
  | [] => []
  | i :: rest => (c.next i).events rest ++ if c.accepts i then [(c, i)] else []

theorem Step.next_eq {c c' : Chain} {i : Instruction} (taken : Step c i c') : c.next i = c' := by
  simp only [Chain.next, show c.process i = .ok c' from taken]

theorem Step.of_accepts {c : Chain} {i : Instruction} (accepted : c.accepts i = true) : Step c i (c.next i) := by
  unfold Chain.accepts at accepted
  unfold Step Chain.next
  split at accepted
  · rename_i c' ran
    rw [ran]
  · cases accepted

theorem Chain.next_of_refused {c : Chain} {i : Instruction} (refused : c.accepts i = false) : c.next i = c := by
  unfold Chain.accepts at refused
  unfold Chain.next
  split at refused
  · cases refused
  · rfl

theorem Chain.runAll_run (c : Chain) (script : List Instruction) :
    History.Run Step c (c.events script) (c.runAll script) := by
  induction script generalizing c with
  | nil => exact .start
  | cons i rest ih =>
    have later := ih (c.next i)
    cases accepted : c.accepts i with
    | true =>
      have first : History.Run Step c [(c, i)] (c.next i) := .next .start (.of_accepts accepted)
      simp only [Chain.events, accepted, if_true]
      exact first.trans later
    | false =>
      simp only [Chain.events, accepted, Bool.false_eq_true, if_false, List.append_nil]
      rw [Chain.next_of_refused accepted] at later ⊢
      simpa only [Chain.runAll, List.foldl_cons, Chain.next_of_refused accepted] using later

theorem Chain.events_mem {c : Chain} {script : List Instruction} {event : Chain × Instruction}
    (member : event ∈ c.events script) : event.2 ∈ script := by
  induction script generalizing c with
  | nil => cases member
  | cons i rest ih =>
    rcases List.mem_append.mp member with later | here
    · exact List.mem_cons_of_mem _ (ih later)
    · split at here
      · rw [List.mem_singleton.mp here]
        exact List.mem_cons_self
      · cases here

theorem Chain.refusal_satisfies {c : Chain} {i : Instruction} {P : Error → Prop} (fails : FailsWith P (c.process i))
    {e : Error} (refused : c.refusal i = some e) : P e := by
  unfold Chain.refusal at refused
  split at refused
  · cases refused
  · rename_i e' failed
    cases refused
    exact fails e failed

theorem Chain.runAll_reachable (upgradeAuthority : Option Pubkey) (script : List Instruction) :
    Reachable ((Chain.genesis upgradeAuthority).runAll script) :=
  ⟨_, _, Chain.Genesis.initial ⟨upgradeAuthority, rfl⟩, Chain.runAll_run _ script⟩

end Upshift
