import Upshift.Queue.Custody
import Upshift.Vault.Principal

namespace Upshift
open Guard KeyedStore History

/-- The vault of a mint and a version is gone, and its share mint is there with no authority and no share. -/
def Chain.Retired (c : Chain) (depositMint : Pubkey) (vaultVersion : Nat) : Prop :=
  c.vaults.lookup (.vaultState depositMint vaultVersion) = none ∧
    ∃ m, c.bank.mints.lookup (.shareMint depositMint vaultVersion) = some m ∧ m.mintAuthority = none ∧ m.supply = 0

/-- Nothing is left of the vault at `k` that somebody could still claim. -/
structure Chain.Vacated (c : Chain) (k : Pubkey) (v : VaultState) : Prop where
  supply : c.bank.supply v.shareMint = 0
  counters : ∀ q, c.queues.lookup (.withdrawalQueue k) = some q → q.pendingRequests = 0 ∧ q.pendingShares = 0
  requests : ∀ key r, c.requests.lookup key = some r → r.queue ≠ .withdrawalQueue k
  entries : ∀ key s, c.subaccounts.lookup key = some s → s.vaultState ≠ k
  reserve : c.bank.balance v.reserve = 0

/-- No share of the vault exists, and neither a request for its queue nor the vault itself can come back. -/
structure Chain.Terminal (c : Chain) (k : Pubkey) (v : VaultState) : Prop where
  supply : c.bank.supply v.shareMint = 0
  requests : ∀ a requestId shares minAssetsOut finalizer c',
    Step c (.queue (.requestWithdrawal a requestId shares minAssetsOut finalizer)) c' → a.queue ≠ .withdrawalQueue k
  vault : ∀ a admin operator feeRecipient vaultVersion shareOffset c',
    Step c (.vault (.initializeVault a admin operator feeRecipient vaultVersion shareOffset)) c' →
      ¬(a.depositMint = v.depositMint ∧ vaultVersion.toNat = v.vaultVersion)

section Closing
variable {c c' : Chain} {i : Instruction} {k depositMint : Pubkey} {vaultVersion : Nat} {v : VaultState}
  {history : List (Chain × Instruction)}

theorem Step.retired (taken : Step c i c') (retired : c.Retired depositMint vaultVersion) :
    c'.Retired depositMint vaultVersion := by
  obtain ⟨absent, m, atMint, authority, empty⟩ := retired
  constructor
  · by_contra present
    obtain ⟨v', vault'⟩ := Option.ne_none_iff_exists'.mp present
    obtain ⟨v, vault⟩ := taken.vault_old ⟨m, atMint⟩ vault'
    cases absent.symm.trans vault
  · obtain ⟨m', atMint', _, kept⟩ := taken.respects.mint atMint
    obtain ⟨authority', supply⟩ := kept fun a is => by rw [authority] at is; cases is
    exact ⟨m', atMint', authority'.trans authority, Nat.le_zero.mp (empty ▸ supply)⟩

/-- A queue whose shares do not exist has nothing pending, and no request. -/
theorem Reachable.nothing_pending (reach : Reachable c) {q : WithdrawalQueue} (queue : c.queues.lookup k = some q)
    (retired : c.bank.supply q.shareMint = 0) : q.pendingRequests = 0 ∧ q.pendingShares = 0 ∧
      ∀ key r, c.requests.lookup key = some r → r.queue ≠ k := by
  have sound := reach.queues_sound k q queue
  obtain ⟨t, atEscrow, _, sameMint⟩ := sound.escrows.shares
  have held := reach.bank_sound.amount_le atEscrow
  have covered := sound.covered
  simp only [Escrow.Covered, Chain.escrow, Bank.balance_of_lookup atEscrow] at covered
  rw [sameMint, retired] at held
  have shares : q.pendingShares = 0 := by omega
  have none : ∀ key r, c.requests.lookup key = some r → r.queue ≠ k := by
    intro key r live here
    have weight := le_total (WithdrawalRequest.pending k) live
    have positive := (reach.requests_sound key r live).positive
    have counted := sound.counted.2
    rw [(WithdrawalRequest.weight_here here).2] at weight
    omega
  refine ⟨?_, shares, none⟩
  by_contra some
  have counted := sound.counted.1
  obtain ⟨key, r, live, counts⟩ := exists_of_total_pos (counted ▸ Nat.pos_of_ne_zero some)
  rw [(WithdrawalRequest.weight_elsewhere (none key r live)).1] at counts
  omega

theorem CloseVault.Ran.vacated (reach : Reachable c) {a : CloseVault} {m : Mint} {closed revoked : Bank}
    (ran : CloseVault.Ran c a v m closed revoked) : c.Vacated a.vaultState v := by
  have formed := (reach.vaults_sound _ v ran.vault).formed
  obtain ⟨_, shareMint, reserve⟩ := formed.addresses ran.key ran.shareMintKey ran.reserveKey
  have supply : c.bank.supply v.shareMint = 0 := by
    rw [shareMint, Bank.supply_of_lookup ran.shareMint, ran.retired]
  have idle : ∀ q, c.queues.lookup (.withdrawalQueue a.vaultState) = some q → q.pendingRequests = 0 ∧
      q.pendingShares = 0 ∧ ∀ key r, c.requests.lookup key = some r → r.queue ≠ .withdrawalQueue a.vaultState := by
    intro q queue
    obtain ⟨key, ⟨version, vaultKey, mintKey⟩, _, _⟩ := (reach.queues_sound _ q queue).formed
    refine reach.nothing_pending queue ?_
    simp only [Pubkey.withdrawalQueue.injEq] at key
    have same := (key.trans vaultKey).symm.trans formed.key
    simp only [Pubkey.vaultState.injEq] at same
    rw [mintKey, same.1, same.2, ← formed.shareMint]
    exact supply
  constructor
  · exact supply
  · intro q queue
    obtain ⟨requests, shares, _⟩ := idle q queue
    exact ⟨requests, shares⟩
  · intro key r live here
    obtain ⟨_, _, _, q, queue, _⟩ := reach.requests_sound key r live
    exact (idle q (here ▸ queue)).2.2 key r live here
  · intro key s entry here
    obtain ⟨live, _⟩ := Chain.deployment_live entry here v
    have count := (reach.registry_sound.exact _ v ran.vault).count
    have registry := ran.registry
    simp only [Chain.deployment] at live count
    omega
  · obtain ⟨t, atReserve, _, _, empty⟩ := ran.reserve
    rw [reserve, Bank.balance_of_lookup atReserve, empty]

theorem Chain.Retired.terminal (retired : c.Retired v.depositMint v.vaultVersion) (formed : v.WellFormed k) :
    c.Terminal k v := by
  obtain ⟨absent, m, atMint, _, empty⟩ := retired
  constructor
  · rw [formed.shareMint, Bank.supply_of_lookup atMint, empty]
  · intro a _ _ _ _ c' taken here
    obtain ⟨q, w, _, ran, _⟩ := RequestWithdrawal.handler_eq_ok taken.executed
    have same := ran.queueKey.symm.trans here
    simp only [Pubkey.withdrawalQueue.injEq] at same
    rw [← formed.key, ← same] at absent
    cases absent.symm.trans ran.vault
  · rintro a _ _ _ version _ c' taken ⟨depositMint, vaultVersion⟩
    obtain ⟨_, _, _, ran, _⟩ := Initialize.handler_eq_ok taken.executed
    have fresh := ran.mint_fresh
    rw [depositMint, vaultVersion] at fresh
    cases fresh.symm.trans atMint

/-- The step that closes a vault retires its share mint. -/
theorem CloseVault.Ran.retires_vault {a : CloseVault} {m : Mint} {closed revoked : Bank}
    (ran : CloseVault.Ran c a v m closed revoked) (formed : v.WellFormed a.vaultState) :
    (CloseVault.after c a revoked).Retired v.depositMint v.vaultVersion := by
  have shareMint := (formed.addresses ran.key ran.shareMintKey ran.reserveKey).2.1
  rw [Chain.Retired, ← formed.key, ← formed.shareMint, shareMint]
  exact ⟨Finmap.lookup_erase _ _, _, ran.retires, rfl, ran.retired⟩

/-- A vault can be closed only when nothing of it is left, and it stays closed for good. -/
theorem close_vault_terminal {a : CloseVault} (reach : Reachable c) (taken : Step c (.vault (.closeVault a)) c') :
    ∃ v, c.vaults.lookup a.vaultState = some v ∧ c.Vacated a.vaultState v ∧
      ∀ history c'', Run Step c' history c'' → c''.Terminal a.vaultState v := by
  obtain ⟨v, m, closed, revoked, ran, rfl⟩ := CloseVault.handler_eq_ok taken.executed
  have formed := (reach.vaults_sound _ v ran.vault).formed
  refine ⟨v, ran.vault, ran.vacated reach, fun history c'' run => ?_⟩
  have still : c''.Retired v.depositMint v.vaultVersion :=
    run.invariant (ran.retires_vault formed) fun _ _ _ before taken => taken.retired before
  exact still.terminal formed

end Closing

namespace Sample

/-- A queue is attached to the vault, and the only depositor redeems everything through it. -/
def emptying : List Instruction :=
  [.queue (.initializeQueue ⟨vault, admin, mint, shareMint, queue, escrowShares, escrowAssets⟩ 3600),
    .vault (.attachWithdrawalQueue ⟨vault, mint, admin⟩ queue),
    .queue (.requestWithdrawal (requesting 7) 7 200000 0 .default),
    .clock 3600,
    .queue (.finalizeWithdrawal ⟨queue, vault, reserve, wallet admin, escrowShares, escrowAssets, shareMint, mint, user,
      request 7, user, wallet user⟩ 1)]

def emptied : Chain := (Chain.genesis (some admin)).runAll (opening ++ emptying)

def closing : CloseVault := ⟨vault, shareMint, reserve, mint, admin⟩

end Sample

open Sample in
theorem emptied_close_terminal :
    ∃ v, emptied.vaults.lookup vault = some v ∧ emptied.Vacated vault v ∧
      ∀ history c'', Run Step (emptied.next (.vault (.closeVault closing))) history c'' → c''.Terminal vault v :=
  @close_vault_terminal _ _ closing (Chain.runAll_reachable _ _) (.of_accepts (by decide +kernel))

end Upshift
