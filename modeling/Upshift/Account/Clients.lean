import Upshift.Account.Memory

namespace Upshift
open Guard KeyedStore History Wire

/-- The clients take the discriminator for a field: they do not check it. -/
def Client.fromBytes (bytes : List UInt8) : Option (List.Vector UInt8 8 × Stored.VaultState) :=
  ((array byte 8).pair Stored.VaultState.layout).load bytes

/-- The helpers that the vault's client adds to the generated record. -/
def Stored.VaultState.resolvedShareOffset (v : Stored.VaultState) : Nat :=
  match v.shareOffset.toNat with
  | 0 => extraShares
  | offset => offset

def Stored.VaultState.withdrawalQueue (v : Stored.VaultState) : Option Key :=
  if v.withdrawalQueueAuthority ≠ Key.zero then some v.withdrawalQueueAuthority else none

def Stored.VaultState.requiresWithdrawalQueue (v : Stored.VaultState) : Bool := v.withdrawalQueue.isSome

def Stored.VaultState.requiresSubaccount (v : Stored.VaultState) : Bool := 0 < v.subaccountCount.toNat

def Stored.VaultState.operatorReturnsNeedDelegation (v : Stored.VaultState) : Bool := v.requiresSubaccount

/-- The product is of a word and a hundred, and fits `u128`. -/
def Stored.VaultState.minFirstDeposit (v : Stored.VaultState) (decimals : UInt8) : Nat :=
  let byDecimals := if decimals.toNat ≤ 3 then 1 else min (10 ^ (decimals.toNat - 3)) u64Max
  let byOffset := (tryFrom u64Max (minSupplyMultiple * v.resolvedShareOffset)).getD u64Max
  max byDecimals byOffset

/-- The listing of vaults with a queue: accounts of one size under one discriminator, and a slice of each. -/
def Chain.scanned (c : Chain) (e : Encoding) (k : Pubkey) : Option (List UInt8) :=
  (c.memory e k).bind fun raw =>
    if raw.owner = .augustVault ∧ raw.data.length = 455 ∧ raw.data.take 8 = AccountKind.vaultState.discriminator then
      some ((raw.data.drop 207).take 32)
    else none

section Legacy
variable {raw : RawAccount} {cut : Nat}

/-- A vault whose bytes are zero from some point on, as all are that were written before the fields there were carved
out of the padding, is accepted without being rewritten. Each field from that point on reads as what it then stands
for: the default offset, no queue, no subaccounts, no principal. -/
theorem legacy_vault_reads (owner : raw.owner = .augustVault)
    (tagged : raw.data.take 8 = AccountKind.vaultState.discriminator) (long : 455 ≤ raw.data.length)
    (flagged : ∃ b, raw.data[198]? = some b ∧ b ≤ 1) (zero : ∀ b ∈ (raw.data.take 455).drop cut, b = 0) :
    ∃ v : Stored.VaultState, raw.load .vaultState = some v ∧
      (cut ≤ 199 → v.resolvedShareOffset = extraShares) ∧
      (cut ≤ 207 → v.withdrawalQueue = none ∧ v.requiresWithdrawalQueue = false) ∧
      (cut ≤ 239 → v.requiresSubaccount = false ∧ v.operatorReturnsNeedDelegation = false) ∧
      (cut ≤ 247 → v.deployedPrincipal = 0) := by
  obtain ⟨v, loads⟩ := Option.isSome_iff_exists.mp (accounts_load_isSome.mpr ⟨tagged, long, fun _ => flagged⟩)
  obtain ⟨rest, written⟩ := accounts.load_eq_some.mp loads
  have whole : raw.data.take 455 = accounts.write .vaultState v := by
    rw [written]
    exact List.take_left' (accounts_length .vaultState v)
  rw [whole] at zero
  have word : ∀ {start : Nat} {x : UInt64}, ⟨start, u64.write x⟩ ∈ v.rows → cut ≤ start → x = 0 := by
    intro start x member later
    refine u64.write_injective ((zero_row zero member later).trans ?_)
    rw [Layout.length_write]
    decide
  have key : ∀ {start : Nat} {k : Key}, ⟨start, k.toList⟩ ∈ v.rows → cut ≤ start → k = Key.zero := by
    intro start k member later
    refine List.Vector.eq _ _ ((zero_row zero member later).trans ?_)
    rw [k.toList_length]
    rfl
  refine ⟨v, (if_pos owner).trans loads, fun later => ?_, fun later => ?_, fun later => ?_, fun later => ?_⟩
  · have offset : v.shareOffset = 0 := word (by simp only [Stored.VaultState.rows, List.mem_cons, true_or, or_true]) later
    unfold Stored.VaultState.resolvedShareOffset
    rw [offset]
    rfl
  · have queue := @key 207 v.withdrawalQueueAuthority
      (by simp only [Stored.VaultState.rows, List.mem_cons, true_or, or_true]) later
    have none : v.withdrawalQueue = none := if_neg (not_not.mpr queue)
    exact ⟨none, by rw [Stored.VaultState.requiresWithdrawalQueue, none]; rfl⟩
  · have count : v.subaccountCount = 0 := word (by simp only [Stored.VaultState.rows, List.mem_cons, true_or, or_true]) later
    have without : v.requiresSubaccount = false := by
      rw [Stored.VaultState.requiresSubaccount, count]
      rfl
    exact ⟨without, without⟩
  · exact word (by simp only [Stored.VaultState.rows, List.mem_cons, true_or, or_true]) later

end Legacy

namespace Sample

/-- The account of a vault from before any of the later fields: nothing but its discriminator. -/
def blank : RawAccount := ⟨.augustVault, AccountKind.vaultState.discriminator ++ .replicate 447 0⟩

end Sample

open Sample in
theorem blank_vault_reads : ∃ v : Stored.VaultState, blank.load .vaultState = some v ∧
    (8 ≤ 199 → v.resolvedShareOffset = extraShares) ∧
      (8 ≤ 207 → v.withdrawalQueue = none ∧ v.requiresWithdrawalQueue = false) ∧
      (8 ≤ 239 → v.requiresSubaccount = false ∧ v.operatorReturnsNeedDelegation = false) ∧
      (8 ≤ 247 → v.deployedPrincipal = 0) :=
  legacy_vault_reads rfl (by decide +kernel) (by decide +kernel) ⟨0, by decide +kernel, by decide⟩ (by decide +kernel)

section Clients
variable {c : Chain} {k : Pubkey} {v : VaultState}

theorem Client.fromBytes_write (a : Stored.VaultState) :
    Client.fromBytes (accounts.write .vaultState a) = some (⟨AccountKind.vaultState.discriminator, rfl⟩, a) := by
  refine (Layout.load_eq_some _).mpr ⟨[], ?_⟩
  rw [Layout.pair_write, array_write, List.append_nil]
  rfl

theorem VaultState.stored_offset {e : Encoding} (fits : v.shareOffset ≤ u64Max) :
    (v.stored e k).resolvedShareOffset = v.resolvedShareOffset := by
  have offset : (v.stored e k).shareOffset.toNat = v.shareOffset := toNat_u64 fits
  cases stored : v.shareOffset <;>
    simp only [Stored.VaultState.resolvedShareOffset, VaultState.resolvedShareOffset, offset, stored]

theorem VaultState.stored_queue {e : Encoding} : (v.stored e k).withdrawalQueue = v.withdrawalQueue.map e.bytes := by
  unfold Stored.VaultState.withdrawalQueue VaultState.withdrawalQueue
  have zero := not_congr (e.zero v.withdrawalQueueAuthority)
  split
  · rename_i attached
    rw [if_pos (zero.mp attached)]
    rfl
  · rename_i detached
    rw [if_neg (zero.not.mp detached)]
    rfl

/-- The saturating product of the program is never cut off, so the client's exact one gives the same floor. -/
theorem VaultState.stored_floor {e : Encoding} (fits : v.shareOffset ≤ u64Max) (decimals : UInt8) :
    (v.stored e k).minFirstDeposit decimals = v.minFirstDeposit decimals.toNat := by
  have small : minSupplyMultiple * v.resolvedShareOffset ≤ u128Max := by
    unfold VaultState.resolvedShareOffset
    split
    · decide
    · simp only [u64Max, minSupplyMultiple, u128Max] at fits ⊢
      omega
  simp only [Stored.VaultState.minFirstDeposit, VaultState.minFirstDeposit, VaultState.minFirstDepositFor,
    VaultState.stored_offset fits, Nat.min_eq_left small]

/-- What a client decodes from the account of a vault, it reads as the program does: the offset and the smallest first
deposit, whether and to which queue redemptions go, and whether operator transfers name a subaccount. -/
theorem Reachable.client_agrees (reach : Reachable c) (e : Encoding) (vault : c.vaults.lookup k = some v) :
    ∃ tag a, (c.memory e k).bind (fun raw => Client.fromBytes raw.data) = some (tag, a) ∧
      a.resolvedShareOffset = v.resolvedShareOffset ∧
      (∀ decimals, a.minFirstDeposit decimals = v.minFirstDeposit decimals.toNat) ∧
      a.withdrawalQueue = v.withdrawalQueue.map e.bytes ∧ a.requiresWithdrawalQueue = v.withdrawalQueue.isSome ∧
      a.requiresSubaccount = v.requiresSubaccount ∧ a.operatorReturnsNeedDelegation = v.requiresSubaccount := by
  have found : c.record e .vaultState k = some (v.stored e k) := Option.map_eq_some_iff.mpr ⟨v, vault, rfl⟩
  have range := reach.in_range.vaults k v vault
  have queue := @VaultState.stored_queue k v e
  have count : (v.stored e k).requiresSubaccount = v.requiresSubaccount := by
    unfold Stored.VaultState.requiresSubaccount VaultState.requiresSubaccount
    rw [VaultState.stored, toNat_u64 range.subaccountCount]
  refine ⟨⟨AccountKind.vaultState.discriminator, rfl⟩, v.stored e k, ?_, VaultState.stored_offset range.shareOffset,
    VaultState.stored_floor range.shareOffset, queue, ?_, count, count⟩
  · rw [reach.memory_of_record found, Option.bind_some, Client.fromBytes_write]
  · rw [Stored.VaultState.requiresWithdrawalQueue, queue, Option.isSome_map]

open Sample in
theorem opened_client : ∃ tag a, (opened.memory encoding vault).bind (fun raw => Client.fromBytes raw.data) = some (tag, a) ∧
    a.resolvedShareOffset = vaultOpened.resolvedShareOffset ∧
    (∀ decimals, a.minFirstDeposit decimals = vaultOpened.minFirstDeposit decimals.toNat) ∧
    a.withdrawalQueue = vaultOpened.withdrawalQueue.map encoding.bytes ∧
    a.requiresWithdrawalQueue = vaultOpened.withdrawalQueue.isSome ∧
    a.requiresSubaccount = vaultOpened.requiresSubaccount ∧
    a.operatorReturnsNeedDelegation = vaultOpened.requiresSubaccount :=
  Reachable.client_agrees (Chain.runAll_reachable _ _) encoding opened_vault

/-- The scan of the accounts by size and discriminator lists exactly the vaults, and shows for each the key of its
queue: zero where none is attached, and the address of its own queue where one is. -/
theorem Reachable.scan_exact (reach : Reachable c) (e : Encoding) (k : Pubkey) :
    ((c.scanned e k).isSome ↔ (c.vaults.lookup k).isSome) ∧
      ∀ slice, c.scanned e k = some slice → ∃ v, c.vaults.lookup k = some v ∧
        (slice = .replicate 32 0 ↔ v.withdrawalQueue = none) ∧
        (slice ≠ .replicate 32 0 → slice = (e.bytes (withdrawalQueuePda k)).toList ∧
          (c.queues.lookup (withdrawalQueuePda k)).isSome) := by
  have listed : ∀ v, c.vaults.lookup k = some v →
      c.scanned e k = some (e.bytes v.withdrawalQueueAuthority).toList := by
    intro v vault
    have found : c.record e .vaultState k = some (v.stored e k) := Option.map_eq_some_iff.mpr ⟨v, vault, rfl⟩
    have member : (⟨207, (v.stored e k).withdrawalQueueAuthority.toList⟩ : Row) ∈
        AccountKind.vaultState.rows (v.stored e k) := by
      simp only [AccountKind.rows, Stored.VaultState.rows, List.mem_cons, true_or, or_true]
    have slice := row_slice member []
    rw [List.append_nil, List.Vector.toList_length] at slice
    unfold Chain.scanned
    rw [reach.memory_of_record found, Option.bind_some, if_pos]
    · exact congrArg some slice
    · refine ⟨rfl, accounts_length .vaultState _, ?_⟩
      rw [accounts_write]
      rfl
  have vaultOf : ∀ slice, c.scanned e k = some slice → ∃ v, c.vaults.lookup k = some v := by
    intro slice scanned
    obtain ⟨raw, held, shown⟩ := Option.bind_eq_some_iff.mp scanned
    split at shown
    · rename_i filters
      obtain ⟨kind, a, found, rfl⟩ := Chain.memory_record held
      have tagged : accounts.tag kind = accounts.tag .vaultState := by
        refine Eq.trans ?_ filters.2.2
        rw [accounts_write]
        exact (List.take_left' (accounts.length_tag kind)).symm
      cases accounts.tag_injective tagged
      obtain ⟨v, vault, _⟩ := Option.map_eq_some_iff.mp found
      exact ⟨v, vault⟩
    · cases shown
  constructor
  · constructor
    · intro scanned
      obtain ⟨slice, scanned⟩ := Option.isSome_iff_exists.mp scanned
      exact Option.isSome_iff_exists.mpr (vaultOf slice scanned)
    · intro vault
      obtain ⟨v, vault⟩ := Option.isSome_iff_exists.mp vault
      exact Option.isSome_of_eq_some (listed v vault)
  · intro slice scanned
    obtain ⟨v, vault⟩ := vaultOf slice scanned
    cases Option.some.inj (scanned.symm.trans (listed v vault))
    have sound := reach.vaults_sound k v vault
    have zero : (e.bytes v.withdrawalQueueAuthority).toList = .replicate 32 0 ↔ v.withdrawalQueueAuthority = .default := by
      rw [← e.zero]
      exact ⟨fun same => List.Vector.eq _ _ same, fun same => congrArg List.Vector.toList same⟩
    have unset : v.withdrawalQueue = none ↔ v.withdrawalQueueAuthority = .default := by
      unfold VaultState.withdrawalQueue
      split
      · rename_i attached
        exact iff_of_false (fun same => by cases same) attached
      · rename_i detached
        exact iff_of_true rfl (not_not.mp detached)
    refine ⟨v, vault, zero.trans unset.symm, fun attached => ?_⟩
    rcases sound.formed.queue with none | own
    · exact absurd (zero.mpr none) attached
    · have here : v.withdrawalQueue = some (.withdrawalQueue k) := by
        rw [VaultState.withdrawalQueue, own]
        rfl
      exact ⟨by rw [own]; rfl, sound.live _ here⟩

end Clients

open Sample in
theorem queued_scan : ((queued.scanned encoding vault).isSome ↔ (queued.vaults.lookup vault).isSome) ∧
    ∀ slice, queued.scanned encoding vault = some slice → ∃ v, queued.vaults.lookup vault = some v ∧
      (slice = .replicate 32 0 ↔ v.withdrawalQueue = none) ∧
      (slice ≠ .replicate 32 0 → slice = (encoding.bytes (withdrawalQueuePda vault)).toList ∧
        (queued.queues.lookup (withdrawalQueuePda vault)).isSome) :=
  Reachable.scan_exact (Chain.runAll_reachable _ _) encoding vault

open Sample in
example : (opened.scanned encoding vault, queued.scanned encoding vault) =
    (some (.replicate 32 0), some (1 :: .replicate 31 0)) := by decide +kernel

end Upshift
