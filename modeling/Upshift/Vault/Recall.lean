import Upshift.Vault.Allowance
import Upshift.Vault.Solvency

namespace Upshift
open Guard KeyedStore History

/-- All that was ever withdrawn to an entry, and all that was written off of it. -/
def withdrawnTo (key : Pubkey) (history : List (Chain × Instruction)) : Nat :=
  (history.map fun event => event.2.withdraws key).sum

def settledFor (key : Pubkey) (history : List (Chain × Instruction)) : Nat :=
  (history.map fun event => event.2.settles key).sum

section Recall
variable {c c' c₀ c₁ c₂ : Chain} {i : Instruction} {k address mint : Pubkey} {vaultVersion : Nat} {v v' : VaultState}
  {s : Subaccount} {t : TokenAccount} {past history : List (Chain × Instruction)}

/-- The allowance of an entry over every run that its owner and its registration sit out. -/
theorem Run.allowance (run : Run Step c₁ history c) (sound : c₁.RegistrySound)
    (vaultKey : k = .vaultState mint vaultVersion) (entrusted : c₁.Entrusted k address mint s t) {limit start : Nat}
    (bounded : (allowance s t k 0 0).Bounded limit start)
    (kept : ∀ event ∈ history, event.2.redelegates (.associatedToken address mint) = false)
    (live : ∀ event ∈ history, event.2.deregisters (.subaccount k address) = false) :
    ∃ s' t', c.Entrusted k address mint s' t' ∧
      (allowance s' t' k (withdrawnTo (.subaccount k address) history)
        (settledFor (.subaccount k address) history)).Bounded limit start := by
  induction run with
  | start => exact ⟨s, t, entrusted, bounded⟩
  | @next history u i u' previous taken ih =>
    obtain ⟨s', t', entrusted', bounded'⟩ := ih (fun event member => kept event (List.mem_cons_of_mem _ member))
      fun event member => live event (List.mem_cons_of_mem _ member)
    have sound' := previous.invariant sound fun _ _ _ before step => step.registry_sound before
    obtain ⟨s'', t'', entrusted'', step⟩ := taken.allowance sound' vaultKey entrusted' (kept _ List.mem_cons_self)
      (live _ List.mem_cons_self) (withdrawnTo (.subaccount k address) history)
      (settledFor (.subaccount k address) history)
    refine ⟨s'', t'', entrusted'', ?_⟩
    have total := step.bounded bounded'
    rw [Nat.add_comm _ (i.withdraws _), Nat.add_comm _ (i.settles _)] at total
    exact total

/-- A registration starts with what it inherits, covered by its delegation. -/
theorem RegisterSubaccount.Ran.entrusted {a : SubaccountAdmin} {ata : TokenAccount}
    (ran : RegisterSubaccount.Ran c a address v ata) :
    ∃ s, (RegisterSubaccount.after c a address v).Entrusted a.vaultState address a.depositMint s ata ∧
      s.principal = (if v.subaccountCount = 0 then v.deployedPrincipal else 0) ∧
      ata.granted a.vaultState = ata.delegatedAmount ∧ s.principal ≤ ata.delegatedAmount := by
  obtain ⟨found, owner, sameMint, key⟩ := ran.account
  obtain ⟨delegate, _, covered⟩ := ran.delegation
  refine ⟨⟨a.vaultState, address, if v.subaccountCount = 0 then v.deployedPrincipal else 0⟩,
    ⟨?_, rfl, rfl, key ▸ found, owner, sameMint, Or.inl delegate⟩, rfl, if_pos delegate, covered⟩
  rw [← ran.entryKey]
  exact Finmap.lookup_insert _

/-- The recorded principal of a vault fits in a `u64`. -/
theorem Step.principal_fits (taken : Step c i c')
    (fits : ∀ k v, c.vaults.lookup k = some v → v.deployedPrincipal ≤ u64Max) :
    ∀ k v, c'.vaults.lookup k = some v → v.deployedPrincipal ≤ u64Max := by
  intro k v' vault'
  cases vault : c.vaults.lookup k with
  | none =>
    obtain ⟨a, _, _, _, _, _, _, _, _, _, rfl, _, rfl⟩ := taken.vault_new vault vault'
    cases Option.some.inj ((Finmap.lookup_insert _).symm.trans vault')
    exact Nat.zero_le _
  | some v =>
    have before := fits k v vault
    have lowered : ∀ {k₀ v₀ w}, c.vaults.lookup k₀ = some v₀ → (c.vaults.insert k₀ w).lookup k = some v' →
        w.deployedPrincipal ≤ v₀.deployedPrincipal → v'.deployedPrincipal ≤ u64Max := by
      intro k₀ v₀ w found₀ found lower
      rcases lookup_rewritten vault found with ⟨_, rfl⟩ | ⟨_, rfl⟩
      · exact lower.trans (fits k₀ v₀ found₀)
      · exact before
    cases taken.registry_move with
    | kept _ vaults => exact (vaults vault vault').2.trans_le before
    | registered _ ran => exact lowered ran.vault vault' le_rfl
    | deregistered _ ran => exact lowered ran.vault vault' le_rfl
    | settled _ ran => exact lowered ran.vault vault' (Nat.sub_le _ _)
    | returned _ ran => exact lowered ran.valid.vault vault' (Nat.sub_le _ _)
    | withdrew _ ran =>
      rcases lookup_rewritten vault vault' with ⟨_, rfl⟩ | ⟨_, rfl⟩
      · exact ran.principal
      · exact before

theorem Reachable.principal_fits (reach : Reachable c) (vault : c.vaults.lookup k = some v) :
    v.deployedPrincipal ≤ u64Max := by
  refine (reach.preserves ?_ ?_ fun _ _ _ _ fits taken => taken.principal_fits fits :
    ∀ k v, c.vaults.lookup k = some v → v.deployedPrincipal ≤ u64Max) k v vault
  · intro authority k v vault
    cases vault
  · intro t vaults before fits k v vault
    obtain ⟨v₀, vault₀, stored⟩ := before.found vault
    rcases stored.principal with same | ⟨unset, _⟩
    · exact same.trans_le (fits k v₀ vault₀)
    · exact unset.trans_le (Nat.zero_le _)

theorem TokenAccount.spend_delegate {amount : Nat} (positive : 0 < amount) (within : amount ≤ t.granted k) :
    t.delegate = some k ∧ amount ≤ t.delegatedAmount ∧ ∃ spent, t.spend k amount = .ok spent := by
  unfold TokenAccount.granted at within
  split at within
  · rename_i delegated
    rw [TokenAccount.spend, if_pos delegated, require_pos within]
    exact ⟨delegated, within, _, rfl⟩
  · omega

/-- The return of part of what an entry owes, as its vault's operator sends it. -/
def Subaccount.recall (s : Subaccount) (v : VaultState) : OperatorTransfer where
  vaultState := s.vaultState
  vaultDepositAta := v.reserve
  operatorTokenAccount := .associatedToken s.address v.depositMint
  depositMint := v.depositMint
  operator := v.operator
  subaccount := some (.subaccount s.vaultState s.address)

/-- What an entry owes is there for the vault to take: the operator's signature returns any part of it that
the account holds. -/
def Chain.Recallable (c : Chain) (s : Subaccount) : Prop :=
  ∃ v, c.vaults.lookup s.vaultState = some v ∧ ∀ amount : UInt64, v.operator.canSign = true → 0 < amount.toNat →
    amount.toNat ≤ s.principal → amount.toNat ≤ c.bank.balance (.associatedToken s.address v.depositMint) →
      ∃ c', Step c (.vault (.operatorDeposit (s.recall v) amount)) c'

theorem Chain.Entrusted.recallable (entrusted : c.Entrusted k address mint s t) (reach : Reachable c)
    (vaultKey : k = .vaultState mint vaultVersion) (covered : s.principal ≤ t.granted k) : c.Recallable s := by
  have registry := reach.registry_sound
  have bank := reach.bank_sound
  obtain ⟨entry, rfl, rfl, account, owner, sameMint, _⟩ := entrusted
  obtain ⟨v, vault⟩ := (registry.entries _ s entry).2
  have sound := reach.vaults_sound s.vaultState v vault
  have key := sound.formed.key
  have version := vaultKey.symm.trans key
  simp only [Pubkey.vaultState.injEq] at version
  obtain ⟨rfl, _⟩ := version
  obtain ⟨_, d, _, atMint, _⟩ := sound.backed.issued
  obtain ⟨r, reserve, reserveOwner, reserveMint⟩ := sound.backed.reserve
  refine ⟨v, vault, fun amount signs positive owed there => ?_⟩
  rw [Bank.balance_of_lookup account] at there
  obtain ⟨delegated, within, spent, debit⟩ := TokenAccount.spend_delegate positive (owed.trans covered)
  have different : Pubkey.associatedToken s.address v.depositMint ≠ v.reserve := Pubkey.noConfusion
  have room := bank.fits account reserve (sameMint.trans reserveMint.symm) different
  have booked : v.localAum ≤ r.amount := Bank.balance_of_lookup reserve ▸ sound.solvent
  have live := (Chain.deployment_live entry rfl v).1
  have count := (registry.exact s.vaultState v vault).count
  simp only [Chain.deployment] at live count
  have registered : v.requiresSubaccount = true := decide_eq_true (by omega)
  have pays := Bank.transferChecked_eq_ok.mpr ⟨t, r, d, spent, account, reserve, atMint, there, sameMint, reserveMint,
    debit, Or.inr ⟨different, by omega, rfl⟩⟩
  have accounts : (s.recall v).accounts c = .ok (v, t, some s) := by
    simp only [OperatorTransfer.accounts, bind_eq_ok, Chain.vaultAt_eq_ok, Chain.reserveAt_eq_ok,
      OperatorTransfer.entry_eq_ok, Chain.associatedAccount_eq_ok, require_eq_ok, pure_eq_ok, exists_const]
    exact ⟨v, ⟨vault, ⟨d, atMint⟩, key⟩, r, ⟨rfl, reserve, reserveOwner, reserveMint⟩, some s,
      Or.inr ⟨_, s, rfl, rfl, entry, rfl⟩, t, ⟨account, owner, sameMint, rfl⟩, rfl, rfl⟩
  have ran : ∃ c', OperatorDeposit.handler c (s.recall v) amount.toNat = .ok c' := by
    simp only [OperatorDeposit.handler, bind_eq_ok, Prod.exists, require_eq_ok, okOr_eq_ok, checkedAdd_eq_some,
      pure_eq_ok, exists_const]
    exact ⟨_, v, t, some s, accounts, positive, registered, fun _ => ⟨delegated, within⟩, _, pays, _,
      takenOff_eq _ _, _, ⟨by omega, rfl⟩, rfl⟩
  obtain ⟨c', ran⟩ := ran
  refine ⟨c', .of_executed (fun a member => ?_) ran⟩
  rw [List.mem_singleton.mp member]
  exact signs

/-- Where a registration stands after a run: its entry owes what its account still delegates, the vault's
operator can take it back, and no more was withdrawn than the delegation allowed at first. -/
structure Chain.Covers (c : Chain) (a : SubaccountAdmin) (s : Subaccount) (t : TokenAccount) (limit start : Nat)
    (history : List (Chain × Instruction)) : Prop where
  entry : c.subaccounts.lookup a.subaccount = some s
  account : c.bank.accounts.lookup a.subaccountAta = some t
  covered : s.principal ≤ t.granted a.vaultState
  fits : s.principal ≤ u64Max
  recallable : c.Recallable s
  withdrawn : withdrawnTo a.subaccount history ≤ limit - start + settledFor a.subaccount history

/-- While its owner leaves the delegation alone, a registration stays covered by it until it is removed. The issuer of
the deposit mint takes no part in these runs (`plain_runs`). -/
theorem allowance_covers (first : c₀.Genesis) (before : Run Step c₀ past c₁) {a : SubaccountAdmin} {ata : TokenAccount}
    (vault : c₁.vaults.lookup a.vaultState = some v) (delegation : c₁.bank.accounts.lookup a.subaccountAta = some ata)
    (registers : Step c₁ (.vault (.registerSubaccount a address)) c₂) (run : Run Step c₂ history c)
    (kept : ∀ event ∈ history, event.2.redelegates a.subaccountAta = false)
    (live : ∀ event ∈ history, event.2.deregisters a.subaccount = false) :
    ∃ s₀ s t, c₂.subaccounts.lookup a.subaccount = some s₀ ∧
      s₀.principal = (if v.subaccountCount = 0 then v.deployedPrincipal else 0) ∧
      s₀.principal ≤ ata.delegatedAmount ∧ c.Covers a s t ata.delegatedAmount s₀.principal history := by
  have registered : Reachable c₂ := History.Reachable.next ⟨c₀, past, first.initial, before⟩ registers
  have reach : Reachable c := registered.extend run
  obtain ⟨w, ata', ran, rfl⟩ := RegisterSubaccount.handler_eq_ok registers.executed
  cases Option.some.inj (vault.symm.trans ran.vault)
  cases Option.some.inj (delegation.symm.trans ran.account.1)
  obtain ⟨s₀, entrusted, inherits, all, covered⟩ := ran.entrusted
  have start : (allowance s₀ ata a.vaultState 0 0).Bounded ata.delegatedAmount s₀.principal := by
    rw [allowance, all]
    constructor
    · exact covered
    · simp only
      omega
  rw [ran.account.2.2.2] at kept
  rw [ran.entryKey] at live
  obtain ⟨s, t, entrusted', bounded⟩ := Run.allowance run registered.registry_sound ran.key entrusted start kept live
  have withdrawn := bounded.withdrawn_le
  have owed : s.principal ≤ u64Max := by
    obtain ⟨u, found⟩ := (reach.registry_sound.entries _ s entrusted'.entry).2
    obtain ⟨count, principal⟩ := reach.registry_sound.exact _ u found
    obtain ⟨some, within⟩ := Chain.deployment_live entrusted'.entry rfl u
    rw [← principal (count ▸ some)] at within
    exact within.trans (reach.principal_fits found)
  refine ⟨s₀, s, t, ran.entryKey ▸ entrusted.entry, inherits, covered, ran.entryKey ▸ entrusted'.entry,
    ran.account.2.2.2 ▸ entrusted'.account, bounded.covered, owed,
    entrusted'.recallable reach ran.key bounded.covered, ?_⟩
  rw [ran.entryKey]
  simp only [allowance] at withdrawn
  omega

end Recall

namespace Sample

def delegated : Chain := (Chain.genesis (some admin)).runAll (opening ++ registering.take 2)
def enrolled : Chain := delegated.next (.vault (.registerSubaccount registration custody))

def delegation : TokenAccount := ⟨mint, custody, 0, some vault, 150000, none⟩

theorem delegated_vault : delegated.vaults.lookup vault = some vaultOpened := by decide +kernel

theorem delegated_account : delegated.bank.accounts.lookup (wallet custody) = some delegation := by decide +kernel

/-- Custody is sent tokens, gives some back, and is sent more. -/
def cycling : List Instruction :=
  [.vault (.operatorWithdraw through 100000), .vault (.operatorDeposit through 30000),
    .vault (.operatorWithdraw through 50000)]

/-- Custody is sent tokens and hands its account to somebody else. -/
def abandoning : List Instruction :=
  [.vault (.operatorWithdraw through 100000), .token (.setAccountOwner (wallet custody) user custody)]

def abandoned : Chain := enrolled.runAll abandoning

/-- Custody is sent tokens and passes them on, and the one it named as close authority closes its account. -/
def forsaking : List Instruction :=
  [.vault (.operatorWithdraw through 100000), .token (.setCloseAuthority (wallet custody) custody (some user)),
    .token (.transfer (wallet custody) mint (wallet user) custody 100000),
    .token (.closeAccount (wallet custody) user)]

def forsaken : Chain := enrolled.runAll forsaking

end Sample

open Sample in
theorem enrolled_allowance_covers :
    ∃ s₀ s t, enrolled.subaccounts.lookup registration.subaccount = some s₀ ∧
      s₀.principal = (if vaultOpened.subaccountCount = 0 then vaultOpened.deployedPrincipal else 0) ∧
      s₀.principal ≤ delegation.delegatedAmount ∧
      (enrolled.runAll cycling).Covers registration s t delegation.delegatedAmount s₀.principal
        (enrolled.events cycling) :=
  @allowance_covers (enrolled.runAll cycling) (.genesis (some admin)) delegated enrolled custody vaultOpened
    ((Chain.genesis (some admin)).events (opening ++ registering.take 2)) (enrolled.events cycling) ⟨_, rfl⟩
    (Chain.runAll_run _ _) registration delegation delegated_vault delegated_account (.of_accepts (by decide +kernel))
    (Chain.runAll_run enrolled cycling) (by decide +kernel) (by decide +kernel)

/-- The direct instructions for a delegation. -/
def Instruction.approves (account : Pubkey) : Instruction → Bool
  | .token (.approve source _ _ _) | .token (.revoke source _) => source = account
  | _ => false

open Sample in
/-- A custody account that changes its owner drops its delegation with no `Approve` or `Revoke`, and so does one that
is closed, by whoever may close it. -/
theorem abandoned_allowance_uncovered :
    (∃ past, Run Step (.genesis (some admin)) past delegated) ∧
      Step delegated (.vault (.registerSubaccount registration custody)) enrolled ∧
      (Run Step enrolled (enrolled.events abandoning) abandoned ∧
        (∀ event ∈ enrolled.events abandoning, event.2.approves (wallet custody) = false) ∧
        (∀ event ∈ enrolled.events abandoning, event.2.deregisters entry = false) ∧
        ∃ s t, abandoned.subaccounts.lookup entry = some s ∧ abandoned.bank.accounts.lookup (wallet custody) = some t ∧
          t.granted vault < s.principal) ∧
      Run Step enrolled (enrolled.events forsaking) forsaken ∧
        (∀ event ∈ enrolled.events forsaking, event.2.approves (wallet custody) = false) ∧
        (∀ event ∈ enrolled.events forsaking, event.2.deregisters entry = false) ∧
        ∃ s, forsaken.subaccounts.lookup entry = some s ∧ forsaken.bank.accounts.lookup (wallet custody) = none ∧
          0 < s.principal := by
  refine ⟨⟨_, Chain.runAll_run _ _⟩, .of_accepts (by decide +kernel), ⟨Chain.runAll_run _ _, by decide +kernel,
    by decide +kernel, ⟨vault, custody, 100000⟩, ⟨mint, user, 100000, none, 0, none⟩, ?_⟩, Chain.runAll_run _ _,
    by decide +kernel, by decide +kernel, ⟨vault, custody, 100000⟩, ?_⟩
  · exact ⟨by decide +kernel, by decide +kernel, by decide⟩
  · exact ⟨by decide +kernel, by decide +kernel, by decide⟩

end Upshift
