import Upshift.Account.Layouts
import Upshift.Account.Ranges

namespace Upshift
open Guard KeyedStore History Wire

/-- The bytes of each address, and the bump it was derived with. Only the default key is all zeros. -/
structure Encoding where
  bytes : Pubkey → Key
  bump : Pubkey → UInt8
  zero : ∀ k, bytes k = Key.zero ↔ k = .default

/-- What the account at `k` stores of a vault. The words reserved for later fields are zero from the start. -/
def VaultState.stored (e : Encoding) (k : Pubkey) (v : VaultState) : Stored.VaultState where
  operator := e.bytes v.operator
  admin := e.bytes v.admin
  shareMint := e.bytes v.shareMint
  depositMint := e.bytes v.depositMint
  feeRecipient := e.bytes v.feeRecipient
  withdrawalFee := .ofNat v.withdrawalFee
  localAum := .ofNat v.localAum
  deployedAum := .ofNat v.deployedAum
  aumIncreaseLimit := .ofNat v.aumIncreaseLimit
  aumDecreaseLimit := .ofNat v.aumDecreaseLimit
  pdaBump := e.bump k
  vaultVersion := .ofNat v.vaultVersion
  paused := v.paused
  shareOffset := .ofNat v.shareOffset
  withdrawalQueueAuthority := e.bytes v.withdrawalQueueAuthority
  subaccountCount := .ofNat v.subaccountCount
  deployedPrincipal := .ofNat v.deployedPrincipal
  padding := .replicate 25 0

def Subaccount.stored (e : Encoding) (k : Pubkey) (s : Subaccount) : Stored.Subaccount where
  vaultState := e.bytes s.vaultState
  address := e.bytes s.address
  principal := .ofNat s.principal
  bump := e.bump k
  padding := .replicate 8 0

def NominatedAdmin.stored (e : Encoding) (n : NominatedAdmin) : Stored.NominatedAdmin where
  nominatedAdmin := e.bytes n.nominatedAdmin
  validUntil := .ofInt n.validUntil

def ProgramConfig.stored (e : Encoding) (k : Pubkey) (p : ProgramConfig) : Stored.ProgramConfig where
  authority := e.bytes p.authority
  bump := e.bump k
  padding := .replicate 16 0

def WithdrawalQueue.stored (e : Encoding) (k : Pubkey) (q : WithdrawalQueue) : Stored.WithdrawalQueue where
  vaultState := e.bytes q.vaultState
  depositMint := e.bytes q.depositMint
  shareMint := e.bytes q.shareMint
  escrowShares := e.bytes q.escrowShares
  escrowAssets := e.bytes q.escrowAssets
  cooldownSeconds := .ofNat q.cooldownSeconds
  fulfillmentWindowSeconds := .ofNat q.fulfillmentWindowSeconds
  sequence := .ofNat q.sequence
  pendingRequests := .ofNat q.pendingRequests
  pendingShares := .ofNat q.pendingShares
  bump := e.bump k
  padding := .replicate 20 0

def WithdrawalRequest.stored (e : Encoding) (k : Pubkey) (r : WithdrawalRequest) : Stored.WithdrawalRequest where
  queue := e.bytes r.queue
  owner := e.bytes r.owner
  recipientTokenAccount := e.bytes r.recipientTokenAccount
  finalizer := e.bytes r.finalizer
  shares := .ofNat r.shares
  requestId := .ofNat r.requestId
  sequence := .ofNat r.sequence
  requestedAt := .ofInt r.requestedAt
  scheduledEligibleAt := .ofInt r.scheduledEligibleAt
  eligibleAt := .ofInt r.eligibleAt
  expiresAt := .ofInt r.expiresAt
  bump := e.bump k
  minAssetsOut := .ofNat r.minAssetsOut
  padding := .replicate 8 0

/-- The record of a kind at an address. -/
def Chain.record (c : Chain) (e : Encoding) : (kind : AccountKind) → Pubkey → Option kind.Record
  | .vaultState, k => (c.vaults.lookup k).map (VaultState.stored e k)
  | .subaccount, k => (c.subaccounts.lookup k).map (Subaccount.stored e k)
  | .nominatedAdmin, k => (c.nominations.lookup k).map (NominatedAdmin.stored e)
  | .programConfig, k => if k = .programConfig then c.config.map (ProgramConfig.stored e k) else none
  | .withdrawalQueue, k => (c.queues.lookup k).map (WithdrawalQueue.stored e k)
  | .withdrawalRequest, k => (c.requests.lookup k).map (WithdrawalRequest.stored e k)

def AccountKind.all : List AccountKind :=
  [.vaultState, .subaccount, .nominatedAdmin, .programConfig, .withdrawalQueue, .withdrawalRequest]

/-- The accounts of both programs in one memory, as the validator keeps them. -/
def Chain.memory (c : Chain) (e : Encoding) (k : Pubkey) : Option RawAccount :=
  AccountKind.all.findSome? fun kind => (c.record e kind k).map fun a => ⟨kind.program, accounts.write kind a⟩

/-- The kind of account an address is derived for. -/
def Pubkey.accountKind : Pubkey → Option AccountKind
  | .vaultState _ _ => some .vaultState
  | .subaccount _ _ => some .subaccount
  | .nominatedAdmin _ _ => some .nominatedAdmin
  | .programConfig => some .programConfig
  | .withdrawalQueue _ => some .withdrawalQueue
  | .withdrawalRequest _ _ _ => some .withdrawalRequest
  | _ => none

section Memory
variable {c : Chain} {e : Encoding} {k : Pubkey} {kind : AccountKind} {a : kind.Record}

theorem AccountKind.mem_all (kind : AccountKind) : kind ∈ AccountKind.all := by
  cases kind <;> decide

/-- Nominations are kept at the addresses derived for them. -/
def Chain.NominationsKeyed (c : Chain) : Prop :=
  ∀ k n, c.nominations.lookup k = some n → ∃ depositMint vaultVersion, k = .nominatedAdmin depositMint vaultVersion

theorem Step.nominations_keyed {c' : Chain} {i : Instruction} (taken : Step c i c') (keyed : c.NominationsKeyed) :
    c'.NominationsKeyed := by
  intro k n found
  rcases taken.nomination_source found with before | ⟨derived, _⟩
  · exact keyed k n before
  · exact derived

theorem Reachable.nominations_keyed (reach : Reachable c) : c.NominationsKeyed := by
  refine reach.preserves ?_ (fun _ _ _ keyed => keyed) fun _ _ _ _ keyed taken => taken.nominations_keyed keyed
  intro authority k n found
  cases found

/-- No address holds accounts of two kinds. -/
theorem Reachable.record_kind (reach : Reachable c) (found : c.record e kind k = some a) : k.accountKind = some kind := by
  cases kind with
  | vaultState =>
    obtain ⟨v, vault, _⟩ := Option.map_eq_some_iff.mp found
    rw [(reach.vaults_sound k v vault).formed.key]
    rfl
  | subaccount =>
    obtain ⟨s, entry, _⟩ := Option.map_eq_some_iff.mp found
    rw [(reach.registry_sound.entries k s entry).1]
    rfl
  | nominatedAdmin =>
    obtain ⟨n, nomination, _⟩ := Option.map_eq_some_iff.mp found
    obtain ⟨_, _, rfl⟩ := reach.nominations_keyed k n nomination
    rfl
  | programConfig =>
    simp only [Chain.record] at found
    split at found
    · rename_i here
      rw [here]
      rfl
    · cases found
  | withdrawalQueue =>
    obtain ⟨q, queue, _⟩ := Option.map_eq_some_iff.mp found
    rw [(reach.queues_sound k q queue).formed.key]
    rfl
  | withdrawalRequest =>
    obtain ⟨r, live, _⟩ := Option.map_eq_some_iff.mp found
    rw [(reach.requests_sound k r live).key]
    rfl

theorem RawAccount.load_write (kind : AccountKind) (a : kind.Record) :
    RawAccount.load kind ⟨kind.program, accounts.write kind a⟩ = some a := by
  refine (if_pos rfl).trans (accounts.load_eq_some.mpr ⟨[], ?_⟩)
  exact (List.append_nil _).symm

/-- An account that was written as one kind loads as no other. -/
theorem RawAccount.load_other {kind' : AccountKind} (a : kind.Record) (other : kind' ≠ kind) :
    RawAccount.load kind' ⟨kind.program, accounts.write kind a⟩ = none := by
  unfold RawAccount.load
  split
  · cases loads : accounts.load kind' (accounts.write kind a) with
    | none => rfl
    | some a' =>
      have written := accounts.load_eq_some.mpr ⟨[], (List.append_nil (accounts.write kind a)).symm⟩
      exact absurd (Family.kind_unique loads written) other
  · rfl

theorem Chain.memory_record {raw : RawAccount} (held : c.memory e k = some raw) :
    ∃ kind a, c.record e kind k = some a ∧ raw = ⟨kind.program, accounts.write kind a⟩ := by
  obtain ⟨kind, _, written⟩ := List.exists_of_findSome?_eq_some held
  obtain ⟨a, found, rfl⟩ := Option.map_eq_some_iff.mp written
  exact ⟨kind, a, found, rfl⟩

theorem Reachable.memory_of_record (reach : Reachable c) (found : c.record e kind k = some a) :
    c.memory e k = some ⟨kind.program, accounts.write kind a⟩ := by
  cases held : c.memory e k with
  | none =>
    have empty := List.findSome?_eq_none_iff.mp held kind kind.mem_all
    rw [found] at empty
    cases empty
  | some raw =>
    obtain ⟨kind', a', found', rfl⟩ := Chain.memory_record held
    cases Option.some.inj ((reach.record_kind found').symm.trans (reach.record_kind found))
    cases Option.some.inj (found'.symm.trans found)
    rfl

/-- Loading an account of the memory as a kind gives the record of that kind at the address, and nothing where
there is none. -/
theorem Reachable.memory_load (reach : Reachable c) (e : Encoding) (k : Pubkey) (kind : AccountKind) :
    (c.memory e k).bind (RawAccount.load kind) = c.record e kind k := by
  cases found : c.record e kind k with
  | some a =>
    rw [reach.memory_of_record found]
    exact RawAccount.load_write kind a
  | none =>
    cases held : c.memory e k with
    | none => rfl
    | some raw =>
      obtain ⟨kind', a, found', rfl⟩ := Chain.memory_record held
      refine RawAccount.load_other a fun same => ?_
      subst same
      rw [found] at found'
      cases found'

end Memory

/-- The numbers of a record, in the order of its fields: as its bytes say, and as the program computes with them. -/
def AccountKind.figures : (kind : AccountKind) → kind.Record → List Int
  | .vaultState, v => [v.withdrawalFee.toNat, v.localAum.toNat, v.deployedAum.toNat, v.aumIncreaseLimit.toNat,
      v.aumDecreaseLimit.toNat, v.vaultVersion.toNat, v.shareOffset.toNat, v.subaccountCount.toNat,
      v.deployedPrincipal.toNat]
  | .subaccount, s => [s.principal.toNat]
  | .nominatedAdmin, n => [n.validUntil.toInt]
  | .programConfig, _ => []
  | .withdrawalQueue, q => [q.cooldownSeconds.toNat, q.fulfillmentWindowSeconds.toNat, q.sequence.toNat,
      q.pendingRequests.toNat, q.pendingShares.toNat]
  | .withdrawalRequest, r => [r.shares.toNat, r.requestId.toNat, r.sequence.toNat, r.requestedAt.toInt,
      r.scheduledEligibleAt.toInt, r.eligibleAt.toInt, r.expiresAt.toInt, r.minAssetsOut.toNat]

def Chain.figures (c : Chain) : AccountKind → Pubkey → Option (List Int)
  | .vaultState, k => (c.vaults.lookup k).map fun v => [v.withdrawalFee, v.localAum, v.deployedAum,
      v.aumIncreaseLimit, v.aumDecreaseLimit, v.vaultVersion, v.shareOffset, v.subaccountCount, v.deployedPrincipal]
  | .subaccount, k => (c.subaccounts.lookup k).map fun s => [s.principal]
  | .nominatedAdmin, k => (c.nominations.lookup k).map fun n => [n.validUntil]
  | .programConfig, k => if k = .programConfig then c.config.map fun _ => [] else none
  | .withdrawalQueue, k => (c.queues.lookup k).map fun q => [q.cooldownSeconds, q.fulfillmentWindowSeconds,
      q.sequence, q.pendingRequests, q.pendingShares]
  | .withdrawalRequest, k => (c.requests.lookup k).map fun r => [r.shares, r.requestId, r.sequence, r.requestedAt,
      r.scheduledEligibleAt, r.eligibleAt, r.expiresAt, r.minAssetsOut]

section Figures
variable {c : Chain}

theorem toNat_u8 {n : Nat} (fits : n ≤ u8Max) : (UInt8.ofNat n).toNat = n :=
  UInt8.toNat_ofNat_of_lt' (Nat.lt_succ_of_le fits)

theorem toNat_u32 {n : Nat} (fits : n ≤ u32Max) : (UInt32.ofNat n).toNat = n :=
  UInt32.toNat_ofNat_of_lt' (Nat.lt_succ_of_le fits)

theorem toNat_u64 {n : Nat} (fits : n ≤ u64Max) : (UInt64.ofNat n).toNat = n :=
  UInt64.toNat_ofNat_of_lt' (Nat.lt_succ_of_le fits)

theorem toInt_i64 {n : Int} (fits : FitsI64 n) : (Int64.ofInt n).toInt = n :=
  Int64.toInt_ofInt_of_le fits.1 (Int.lt_of_le_sub_one fits.2)

/-- Nothing is cut off when a record within its ranges is stored. -/
theorem Chain.InRange.figures_stored (fits : c.InRange) (e : Encoding) (k : Pubkey) (kind : AccountKind) :
    (c.record e kind k).map kind.figures = c.figures kind k := by
  cases kind with
  | vaultState =>
    simp only [Chain.record, Chain.figures, Option.map_map]
    refine Option.map_congr fun v vault => ?_
    have range := fits.vaults k v vault
    simp only [Function.comp_apply, AccountKind.figures, VaultState.stored, toNat_u32 range.withdrawalFee,
      toNat_u64 range.localAum, toNat_u64 range.deployedAum, toNat_u32 range.aumIncreaseLimit,
      toNat_u32 range.aumDecreaseLimit, toNat_u8 range.vaultVersion, toNat_u64 range.shareOffset,
      toNat_u64 range.subaccountCount, toNat_u64 range.deployedPrincipal]
  | subaccount =>
    simp only [Chain.record, Chain.figures, Option.map_map]
    refine Option.map_congr fun s entry => ?_
    simp only [Function.comp_apply, AccountKind.figures, Subaccount.stored, toNat_u64 (fits.subaccounts k s entry)]
  | nominatedAdmin =>
    simp only [Chain.record, Chain.figures, Option.map_map]
    refine Option.map_congr fun n nomination => ?_
    simp only [Function.comp_apply, AccountKind.figures, NominatedAdmin.stored,
      toInt_i64 (fits.nominations k n nomination)]
  | programConfig =>
    simp only [Chain.record, Chain.figures]
    split
    · rw [Option.map_map]
      rfl
    · rfl
  | withdrawalQueue =>
    simp only [Chain.record, Chain.figures, Option.map_map]
    refine Option.map_congr fun q queue => ?_
    have range := fits.queues k q queue
    simp only [Function.comp_apply, AccountKind.figures, WithdrawalQueue.stored, toNat_u64 range.cooldownSeconds,
      toNat_u64 range.fulfillmentWindowSeconds, toNat_u64 range.sequence, toNat_u64 range.pendingRequests,
      toNat_u64 range.pendingShares]
  | withdrawalRequest =>
    simp only [Chain.record, Chain.figures, Option.map_map]
    refine Option.map_congr fun r live => ?_
    have range := fits.requests k r live
    simp only [Function.comp_apply, AccountKind.figures, WithdrawalRequest.stored, toNat_u64 range.shares,
      toNat_u64 range.requestId, toNat_u64 range.sequence, toInt_i64 range.requestedAt,
      toInt_i64 range.scheduledEligibleAt, toInt_i64 range.eligibleAt, toInt_i64 range.expiresAt,
      toNat_u64 range.minAssetsOut]

/-- The typed stores of a reachable chain are one memory of bytes: whatever account an instruction loads, at whatever
address and as whatever kind, it gets the record of that kind there with its numbers exact, or nothing. -/
theorem Reachable.memory_faithful (reach : Reachable c) (e : Encoding) (k : Pubkey) (kind : AccountKind) :
    (c.memory e k).bind (RawAccount.load kind) = c.record e kind k ∧
      ((c.memory e k).bind (RawAccount.load kind)).map kind.figures = c.figures kind k := by
  rw [reach.memory_load]
  exact ⟨rfl, reach.in_range.figures_stored e k kind⟩

end Figures

namespace Sample

def encoding : Encoding where
  bytes k := if k = .default then Key.zero else 1 ::ᵥ .replicate 31 0
  bump _ := 255
  zero k := by
    split
    · rename_i here
      exact iff_of_true rfl here
    · rename_i other
      exact iff_of_false (by decide) other

end Sample

open Sample in
theorem matured_memory :
    ((matured.memory encoding queue).bind (RawAccount.load .withdrawalQueue)) =
        matured.record encoding .withdrawalQueue queue ∧
      ((matured.memory encoding queue).bind (RawAccount.load .withdrawalQueue)).map AccountKind.withdrawalQueue.figures =
        matured.figures .withdrawalQueue queue :=
  Reachable.memory_faithful (Chain.runAll_reachable _ _) encoding queue .withdrawalQueue

open Sample in
example : matured.figures .withdrawalQueue queue = some [3600, 0, 1, 1, 50000] := by decide +kernel

end Upshift
