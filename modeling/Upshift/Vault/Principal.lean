import Upshift.Vault.Deployment
import Upshift.Vault.Price

namespace Upshift
open Guard KeyedStore

/-- What a registry entry counts for at the vault at `k`. -/
def Subaccount.counted (k : Pubkey) (s : Subaccount) : Nat := if s.vaultState = k then 1 else 0

def Subaccount.owed (k : Pubkey) (s : Subaccount) : Nat := if s.vaultState = k then s.principal else 0

def Chain.deployment (c : Chain) (k : Pubkey) (v : VaultState) : Deployment where
  count := v.subaccountCount
  principal := v.deployedPrincipal
  entries := total (Subaccount.counted k) c.subaccounts
  owed := total (Subaccount.owed k) c.subaccounts

/-- What a step does to the registry entries and to the counters that go with them. -/
inductive RegistryMove (c : Chain) (i : Instruction) : Chain → Prop
  | kept {c'} (subaccounts : c'.subaccounts = c.subaccounts)
      (vaults : ∀ {k v v'}, c.vaults.lookup k = some v → c'.vaults.lookup k = some v' →
        v'.subaccountCount = v.subaccountCount ∧ v'.deployedPrincipal = v.deployedPrincipal) : RegistryMove c i c'
  | registered {a address v ata} (label : i = .vault (.registerSubaccount a address))
      (ran : RegisterSubaccount.Ran c a address v ata) : RegistryMove c i (RegisterSubaccount.after c a address v)
  | deregistered {a v s} (label : i = .vault (.deregisterSubaccount a))
      (ran : DeregisterSubaccount.Ran c a v s) : RegistryMove c i (DeregisterSubaccount.after c a v)
  | settled {a amount v s ata} (label : i = .vault (.settleSubaccountLoss a amount))
      (ran : SettleSubaccountLoss.Ran c a amount.toNat v s ata) :
      RegistryMove c i (SettleSubaccountLoss.after c a amount.toNat v s)
  | withdrew {a amount v dest entry paid subaccounts} (label : i = .vault (.operatorWithdraw a amount))
      (ran : OperatorWithdraw.Ran c a amount.toNat v dest entry paid subaccounts) :
      RegistryMove c i (OperatorWithdraw.after c a amount.toNat v paid subaccounts)
  | returned {a amount v source entry paid} (label : i = .vault (.operatorDeposit a amount))
      (ran : OperatorDeposit.Ran c a amount.toNat v source entry paid) :
      RegistryMove c i (OperatorDeposit.after c a amount.toNat v entry paid)

section Step
variable {c c' : Chain} {i : Instruction} {k : Pubkey} {v v' : VaultState} {s : Subaccount}

theorem registry_kept {vaults : Store Pubkey VaultState} {k₀ : Pubkey} {v₀ w : VaultState}
    (found₀ : vaults.lookup k₀ = some v₀) (found : vaults.lookup k = some v)
    (found' : (vaults.insert k₀ w).lookup k = some v') (count : w.subaccountCount = v₀.subaccountCount)
    (principal : w.deployedPrincipal = v₀.deployedPrincipal) :
    v'.subaccountCount = v.subaccountCount ∧ v'.deployedPrincipal = v.deployedPrincipal := by
  rcases lookup_rewritten found found' with ⟨rfl, rfl⟩ | ⟨_, rfl⟩
  · cases Option.some.inj (found₀.symm.trans found)
    exact ⟨count, principal⟩
  · exact ⟨rfl, rfl⟩

theorem Step.registry_move (taken : Step c i c') : RegistryMove c i c' := by
  have unchanged : ∀ {vaults : Store Pubkey VaultState}, vaults = c.vaults → ∀ {k v v'},
      c.vaults.lookup k = some v → vaults.lookup k = some v' →
        v'.subaccountCount = v.subaccountCount ∧ v'.deployedPrincipal = v.deployedPrincipal := by
    rintro _ rfl k v v' vault vault'
    cases Option.some.inj (vault.symm.trans vault')
    exact ⟨rfl, rfl⟩
  cases taken.move with
  | registered label ran => exact .registered label ran
  | deregistered label ran => exact .deregistered label ran
  | settled label ran => exact .settled label ran
  | withdrew label ran => exact .withdrew label ran
  | returned label ran => exact .returned label ran
  | quiet _ _ vaults subaccounts => exact .kept subaccounts (unchanged vaults)
  | scheduled _ _ _ _ vaults subaccounts => exact .kept subaccounts (unchanged vaults)
  | configured _ found change _ vaults subaccounts =>
    exact .kept subaccounts fun vault vault' =>
      registry_kept found vault (vaults ▸ vault') change.subaccountCount change.deployedPrincipal
  | detached _ found _ _ vaults subaccounts =>
    refine .kept subaccounts fun vault vault' => ?_
    rw [vaults] at vault'
    exact registry_kept found vault vault' rfl rfl
  | attached _ found => exact .kept rfl fun vault vault' => registry_kept found vault vault' rfl rfl
  | reported _ ran => exact .kept rfl fun vault vault' => registry_kept ran.vault vault vault' rfl rfl
  | deposited _ ran => exact .kept rfl fun vault vault' => registry_kept ran.valid.vault vault vault' rfl rfl
  | redeemed _ ran => exact .kept rfl fun vault vault' => registry_kept ran.valid.vault vault vault' rfl rfl
  | finalized _ ran => exact .kept rfl fun vault vault' => registry_kept ran.redeem.valid.vault vault vault' rfl rfl
  | initialized _ ran =>
    refine .kept rfl fun vault vault' => ?_
    rcases lookup_rewritten vault vault' with ⟨rfl, _⟩ | ⟨_, rfl⟩
    · cases ran.fresh.symm.trans vault
    · exact ⟨rfl, rfl⟩
  | closed =>
    refine .kept rfl fun vault vault' => ?_
    obtain ⟨_, before⟩ := lookup_erase_cases vault'
    exact unchanged rfl vault before
  | opened | requested | cancelled | expedited | swept | banked => exact .kept rfl (unchanged rfl)

theorem Subaccount.weight_here (here : s.vaultState = k) : s.counted k = 1 ∧ s.owed k = s.principal :=
  ⟨if_pos here, if_pos here⟩

theorem Subaccount.weight_elsewhere (other : s.vaultState ≠ k) : s.counted k = 0 ∧ s.owed k = 0 :=
  ⟨if_neg other, if_neg other⟩

/-- A vault without entries is owed nothing. -/
theorem Chain.deployment_vacant (c : Chain) (k : Pubkey) (v : VaultState) :
    (c.deployment k v).entries = 0 → (c.deployment k v).owed = 0 := by
  intro vacant
  by_contra owes
  obtain ⟨key, s, entry, owed⟩ := exists_of_total_pos (Nat.pos_of_ne_zero owes)
  have one := le_total (Subaccount.counted k) entry
  have here : s.vaultState = k := by
    by_contra other
    rw [(Subaccount.weight_elsewhere other).2] at owed
    omega
  rw [(Subaccount.weight_here here).1] at one
  simp only [Chain.deployment] at vacant
  omega

theorem OperatorTransfer.deploy_eq_ok {a : OperatorTransfer} {entry : Option Subaccount} {amount : Nat}
    {subaccounts : Store Pubkey Subaccount} (ran : a.deploy c entry amount = .ok subaccounts) :
    entry = none ∧ subaccounts = c.subaccounts ∨
      ∃ s, entry = some s ∧ subaccounts = a.record c { s with principal := s.principal + amount } := by
  unfold OperatorTransfer.deploy at ran
  split at ran
  · exact Or.inl ⟨rfl, (pure_eq_ok.mp ran).symm⟩
  · simp only [bind_eq_ok, okOr_eq_ok, checkedAdd_eq_some, pure_eq_ok] at ran
    obtain ⟨_, ⟨_, rfl⟩, rfl⟩ := ran
    exact Or.inr ⟨_, rfl, rfl⟩

theorem OperatorTransfer.record_of_named {a : OperatorTransfer} {key : Pubkey} (named : a.subaccount = some key) :
    a.record c s = c.subaccounts.insert key s := by
  rw [OperatorTransfer.record, named]

/-- Every entry lives where its fields put it, and its vault is there. -/
def Chain.EntriesSound (c : Chain) : Prop :=
  ∀ key s, c.subaccounts.lookup key = some s →
    key = .subaccount s.vaultState s.address ∧ ∃ v, c.vaults.lookup s.vaultState = some v

/-- The optional entry of an operator transfer is an entry of its vault. -/
theorem OperatorTransfer.Valid.entry {a : OperatorTransfer} {t : TokenAccount} (valid : a.Valid c v t (some s))
    (sound : c.EntriesSound) : ∃ key, a.subaccount = some key ∧ c.subaccounts.lookup key = some s ∧
      key = .subaccount a.vaultState s.address ∧ s.vaultState = a.vaultState := by
  rcases valid.registered with ⟨_, none⟩ | ⟨key, s', named, same, entry, derived⟩
  · cases none
  · cases same
    have address := (sound key s entry).1
    rw [derived] at address
    simp only [Pubkey.subaccount.injEq, and_true] at address
    exact ⟨key, named, entry, derived, address.symm⟩

/-- Rewriting what an entry owes moves the sum of its own vault, and no count. -/
theorem owed_rewrite {key : Pubkey} (entry : c.subaccounts.lookup key = some s) (here : s.vaultState = k)
    (principal : Nat) :
    total (Subaccount.counted k) (c.subaccounts.insert key { s with principal := principal }) =
        total (Subaccount.counted k) c.subaccounts ∧
      total (Subaccount.owed k) (c.subaccounts.insert key { s with principal := principal }) + s.principal =
        total (Subaccount.owed k) c.subaccounts + principal := by
  have count := total_insert (Subaccount.counted k) { s with principal := principal } entry
  have owed := total_insert (Subaccount.owed k) { s with principal := principal } entry
  have same : Subaccount.counted k { s with principal := principal } = s.counted k := rfl
  have after : Subaccount.owed k { s with principal := principal } = principal := if_pos here
  rw [after, (Subaccount.weight_here here).2] at owed
  exact ⟨by omega, owed⟩

theorem owed_elsewhere {key : Pubkey} (entry : c.subaccounts.lookup key = some s) (other : s.vaultState ≠ k)
    (principal : Nat) :
    total (Subaccount.counted k) (c.subaccounts.insert key { s with principal := principal }) =
        total (Subaccount.counted k) c.subaccounts ∧
      total (Subaccount.owed k) (c.subaccounts.insert key { s with principal := principal }) =
        total (Subaccount.owed k) c.subaccounts := by
  have count := total_insert (Subaccount.counted k) { s with principal := principal } entry
  have owed := total_insert (Subaccount.owed k) { s with principal := principal } entry
  have same : Subaccount.counted k { s with principal := principal } = s.counted k := rfl
  have after : Subaccount.owed k { s with principal := principal } = 0 := if_neg other
  rw [after, (Subaccount.weight_elsewhere other).2] at owed
  exact ⟨by omega, owed⟩

theorem Chain.deployment_live {key : Pubkey} (entry : c.subaccounts.lookup key = some s) (here : s.vaultState = k)
    (v : VaultState) : 1 ≤ (c.deployment k v).entries ∧ s.principal ≤ (c.deployment k v).owed := by
  have one := le_total (Subaccount.counted k) entry
  have owed := le_total (Subaccount.owed k) entry
  rw [(Subaccount.weight_here here).1] at one
  rw [(Subaccount.weight_here here).2] at owed
  exact ⟨one, owed⟩

/-- A step that rewrites what one entry owes is a step of every vault's deployment, if it is one of its own
vault's. -/
theorem Chain.deployment_rewritten {key k₀ : Pubkey} {v₀ w : VaultState} {principal : Nat}
    (entry : c.subaccounts.lookup key = some s) (here : s.vaultState = k₀) (vault₀ : c.vaults.lookup k₀ = some v₀)
    (vaults : c'.vaults = c.vaults.insert k₀ w)
    (subaccounts : c'.subaccounts = c.subaccounts.insert key { s with principal := principal })
    (vault : c.vaults.lookup k = some v) (vault' : c'.vaults.lookup k = some v')
    (own : ∀ owed, 1 ≤ (c.deployment k₀ v₀).entries → s.principal ≤ (c.deployment k₀ v₀).owed →
      owed + s.principal = (c.deployment k₀ v₀).owed + principal →
        (c.deployment k₀ v₀).Step ⟨w.subaccountCount, w.deployedPrincipal, (c.deployment k₀ v₀).entries, owed⟩) :
    (c.deployment k v).Step (c'.deployment k v') := by
  rw [vaults] at vault'
  rcases lookup_rewritten vault vault' with ⟨rfl, rfl⟩ | ⟨other, rfl⟩
  · cases Option.some.inj (vault.symm.trans vault₀)
    obtain ⟨sameCount, owed⟩ := owed_rewrite entry here principal
    obtain ⟨live, within⟩ := Chain.deployment_live entry here v
    refine (own _ live within owed).congr rfl rfl ?_ ?_
    · simp only [Chain.deployment, subaccounts, sameCount]
    · simp only [Chain.deployment, subaccounts]
  · obtain ⟨sameCount, owed⟩ := owed_elsewhere entry (here ▸ Ne.symm other) principal
    refine Deployment.Step.idle.congr rfl rfl ?_ ?_
    · simp only [Chain.deployment, subaccounts, sameCount]
    · simp only [Chain.deployment, subaccounts, owed]

/-- Every step of the system is a step of each vault's deployed principal. -/
theorem Step.deployment (taken : Step c i c') (sound : c.EntriesSound) (vault : c.vaults.lookup k = some v)
    (vault' : c'.vaults.lookup k = some v') : (c.deployment k v).Step (c'.deployment k v') := by
  cases taken.registry_move with
  | kept subaccounts vaults =>
    obtain ⟨count, principal⟩ := vaults vault vault'
    refine Deployment.Step.idle.congr count principal ?_ ?_
    · simp only [Chain.deployment, subaccounts]
    · simp only [Chain.deployment, subaccounts]
  | @registered a address w ata label ran =>
    have moreCount := total_insert_fresh (Subaccount.counted k)
      ⟨a.vaultState, address, if w.subaccountCount = 0 then w.deployedPrincipal else 0⟩ ran.fresh
    have moreOwed := total_insert_fresh (Subaccount.owed k)
      ⟨a.vaultState, address, if w.subaccountCount = 0 then w.deployedPrincipal else 0⟩ ran.fresh
    rcases lookup_rewritten vault vault' with ⟨rfl, rfl⟩ | ⟨other, rfl⟩
    · cases Option.some.inj (vault.symm.trans ran.vault)
      simp only [Subaccount.counted, Subaccount.owed, if_true] at moreCount moreOwed
      exact Deployment.Step.register.congr rfl rfl (moreCount.trans (Nat.add_comm _ _))
        (moreOwed.trans (Nat.add_comm _ _))
    · simp only [Subaccount.counted, Subaccount.owed, Ne.symm other, if_false, Nat.zero_add] at moreCount moreOwed
      exact Deployment.Step.idle.congr rfl rfl moreCount moreOwed
  | @deregistered a w s label ran =>
    have lessCount := total_erase (Subaccount.counted k) ran.entry
    have lessOwed := total_erase (Subaccount.owed k) ran.entry
    rcases lookup_rewritten vault vault' with ⟨rfl, rfl⟩ | ⟨other, rfl⟩
    · cases Option.some.inj (vault.symm.trans ran.vault)
      obtain ⟨one, all⟩ := Subaccount.weight_here ran.entryVault
      refine (Deployment.Step.deregister (Chain.deployment_live ran.entry ran.entryVault v).1).congr rfl rfl ?_ ?_
      · simp only [Chain.deployment, DeregisterSubaccount.after]
        omega
      · have empty := ran.empty
        simp only [Chain.deployment, DeregisterSubaccount.after]
        omega
    · obtain ⟨none, nothing⟩ := @Subaccount.weight_elsewhere k s (ran.entryVault ▸ Ne.symm other)
      refine Deployment.Step.idle.congr rfl rfl ?_ ?_
      · simp only [Chain.deployment, DeregisterSubaccount.after]
        omega
      · simp only [Chain.deployment, DeregisterSubaccount.after]
        omega
  | @settled a amount w s ata label ran =>
    have shortfall := ran.shortfall
    refine Chain.deployment_rewritten ran.entry ran.entryVault ran.vault rfl rfl vault vault' ?_
    intro owed live within moved
    have covered : amount.toNat ≤ (c.deployment a.vaultState w).owed := by omega
    refine (Deployment.Step.clear live covered).congr rfl rfl rfl ?_
    simp only
    omega
  | @withdrew a amount w dest entry paid subaccounts label ran =>
    have registry := ran.registry
    rcases OperatorTransfer.deploy_eq_ok ran.recorded with ⟨rfl, rfl⟩ | ⟨s, rfl, rfl⟩
    · rcases lookup_rewritten vault vault' with ⟨rfl, rfl⟩ | ⟨_, rfl⟩
      · cases Option.some.inj (vault.symm.trans ran.valid.vault)
        have empty : v.subaccountCount = 0 := Nat.eq_zero_of_not_pos (of_decide_eq_false registry)
        exact (Deployment.Step.unregistered empty).congr rfl rfl rfl rfl
      · exact Deployment.Step.idle.congr rfl rfl rfl rfl
    · obtain ⟨key, named, found, _, here⟩ := ran.valid.entry sound
      have subaccounts : a.record c { s with principal := s.principal + amount.toNat } =
          c.subaccounts.insert key { s with principal := s.principal + amount.toNat } :=
        OperatorTransfer.record_of_named named
      refine Chain.deployment_rewritten found here ran.valid.vault rfl subaccounts vault vault' ?_
      intro owed live _ moved
      refine (Deployment.Step.deploy live).congr rfl rfl rfl ?_
      simp only
      omega
  | @returned a amount w source entry paid label ran =>
    have registry := ran.registry
    cases entry with
    | none =>
      rcases lookup_rewritten vault vault' with ⟨rfl, rfl⟩ | ⟨_, rfl⟩
      · cases Option.some.inj (vault.symm.trans ran.valid.vault)
        have empty : v.subaccountCount = 0 := Nat.eq_zero_of_not_pos (of_decide_eq_false registry)
        exact (Deployment.Step.unregistered empty).congr rfl rfl rfl rfl
      · exact Deployment.Step.idle.congr rfl rfl rfl rfl
    | some s =>
      obtain ⟨key, named, found, _, here⟩ := ran.valid.entry sound
      have subaccounts : (OperatorDeposit.after c a amount.toNat w (some s) paid).subaccounts =
          c.subaccounts.insert key { s with principal := s.principal - amount.toNat } :=
        OperatorTransfer.record_of_named named
      refine Chain.deployment_rewritten found here ran.valid.vault rfl subaccounts vault vault' ?_
      intro owed live within moved
      have covered := (Nat.min_le_right amount.toNat s.principal).trans within
      refine (Deployment.Step.clear live covered).congr rfl rfl rfl ?_
      simp only
      omega

/-- An entry that is live after a step was live before, or was registered by it. -/
theorem Step.entry_source (taken : Step c i c') (sound : c.EntriesSound) {key : Pubkey} {s' : Subaccount}
    (entry' : c'.subaccounts.lookup key = some s') :
    (∃ s principal, c.subaccounts.lookup key = some s ∧ s' = { s with principal := principal }) ∨
      ∃ a address v ata, i = .vault (.registerSubaccount a address) ∧ key = a.subaccount ∧
        RegisterSubaccount.Ran c a address v ata ∧ c' = RegisterSubaccount.after c a address v ∧
          s' = ⟨a.vaultState, address, if v.subaccountCount = 0 then v.deployedPrincipal else 0⟩ := by
  have rewritten : ∀ {key₀ s₀ principal}, c.subaccounts.lookup key₀ = some s₀ →
      (c.subaccounts.insert key₀ { s₀ with principal := principal }).lookup key = some s' →
        ∃ s principal, c.subaccounts.lookup key = some s ∧ s' = { s with principal := principal } := by
    intro key₀ s₀ principal found found'
    rcases lookup_insert_cases found' with ⟨rfl, rfl⟩ | ⟨_, before⟩
    · exact ⟨s₀, principal, found, rfl⟩
    · exact ⟨s', s'.principal, before, rfl⟩
  cases taken.registry_move with
  | kept subaccounts => exact Or.inl ⟨s', s'.principal, subaccounts ▸ entry', rfl⟩
  | registered label ran =>
    rcases lookup_insert_cases entry' with ⟨here, written⟩ | ⟨_, before⟩
    · exact Or.inr ⟨_, _, _, _, label, here, ran, rfl, written⟩
    · exact Or.inl ⟨s', s'.principal, before, rfl⟩
  | deregistered => exact Or.inl ⟨s', s'.principal, (lookup_erase_cases entry').2, rfl⟩
  | settled _ ran => exact Or.inl (rewritten ran.entry entry')
  | withdrew _ ran =>
    rcases OperatorTransfer.deploy_eq_ok ran.recorded with ⟨rfl, rfl⟩ | ⟨s, rfl, rfl⟩
    · exact Or.inl ⟨s', s'.principal, entry', rfl⟩
    · obtain ⟨_, named, found, _⟩ := ran.valid.entry sound
      rw [OperatorTransfer.record_of_named named] at entry'
      exact Or.inl (rewritten found entry')
  | @returned a amount w source entry paid label ran =>
    cases entry with
    | none => exact Or.inl ⟨s', s'.principal, entry', rfl⟩
    | some s =>
      obtain ⟨key₀, named, found, _⟩ := ran.valid.entry sound
      have written : (c.subaccounts.insert key₀ { s with principal := s.principal - amount.toNat }).lookup key =
          some s' := @OperatorTransfer.record_of_named c { s with principal := s.principal - amount.toNat } a _ named ▸ entry'
      exact Or.inl (rewritten found written)

/-- The registry of every vault is exact, and every entry belongs to a vault. -/
structure Chain.RegistrySound (c : Chain) : Prop where
  entries : c.EntriesSound
  exact : ∀ k v, c.vaults.lookup k = some v → (c.deployment k v).Exact

theorem Step.registry_sound (taken : Step c i c') (sound : c.RegistrySound) : c'.RegistrySound := by
  obtain ⟨entries, exact⟩ := sound
  constructor
  · intro key s' entry'
    rcases taken.entry_source entries entry' with ⟨s, principal, entry, rfl⟩ | ⟨a, _, _, _, _, rfl, ran, rfl, rfl⟩
    · obtain ⟨address, v, vault⟩ := entries key s entry
      refine ⟨address, ?_⟩
      rcases taken.vault_stays vault with still | ⟨a, m, closed, revoked, _, here, ran, _⟩
      · exact still
      · obtain ⟨live, _⟩ := Chain.deployment_live entry here v
        have count := (exact a.vaultState v ran.vault).count
        have registry := ran.registry
        simp only [Chain.deployment] at live count
        omega
    · exact ⟨ran.entryKey, _, Finmap.lookup_insert _⟩
  · intro k v' vault'
    cases vault : c.vaults.lookup k with
    | some v =>
      exact (taken.deployment entries vault vault').exact (c.deployment_vacant k v) (exact k v vault)
    | none =>
      obtain ⟨a, _, _, _, _, _, _, _, _, _, rfl, ran, rfl⟩ := taken.vault_new vault vault'
      cases Option.some.inj ((Finmap.lookup_insert _).symm.trans vault')
      refine ⟨?_, fun some => absurd some (Nat.lt_irrefl 0)⟩
      by_contra some
      obtain ⟨key, s, entry, counts⟩ := exists_of_total_pos (Nat.pos_of_ne_zero (Ne.symm some))
      obtain ⟨_, v, found⟩ := entries key s entry
      by_cases here : s.vaultState = a.vaultState
      · cases vault.symm.trans (here ▸ found)
      · rw [(Subaccount.weight_elsewhere here).1] at counts
        omega

/-- A principal that was not stored yet is that of a vault without a registry. -/
theorem VaultState.StoredBefore.exact {vaults : Store Pubkey VaultState} {v₀ : VaultState} (stored : v.StoredBefore v₀)
    (exact : (c.deployment k v₀).Exact) : (Chain.deployment { c with vaults := vaults } k v).Exact := by
  have count : v.subaccountCount = v₀.subaccountCount := by rw [stored.rest]
  refine ⟨count.trans exact.count, fun live => ?_⟩
  change 0 < v.subaccountCount at live
  rw [count] at live
  rcases stored.principal with same | ⟨_, none⟩
  · exact same.trans (exact.principal live)
  · exact absurd none live.ne'

theorem Reachable.registry_sound (reach : Reachable c) : c.RegistrySound := by
  refine reach.preserves (fun _ => ⟨?_, ?_⟩) ?_ fun _ _ _ _ sound taken => taken.registry_sound sound
  · intro key s entry
    cases entry
  · intro k v vault
    cases vault
  · intro t vaults before sound
    refine ⟨fun key s entry => ?_, fun k v vault => ?_⟩
    · obtain ⟨address, v₀, vault₀⟩ := sound.entries key s entry
      obtain ⟨v, vault, _⟩ := before.still vault₀
      exact ⟨address, v, vault⟩
    · obtain ⟨v₀, vault₀, stored⟩ := before.found vault
      exact stored.exact (sound.exact k v₀ vault₀)

/-- The principal ledger of one vault is exact, and each registry instruction moves the total with the
entry it touches. -/
structure Chain.PrincipalExact (c : Chain) (k : Pubkey) (v : VaultState) : Prop where
  count : v.subaccountCount = total (Subaccount.counted k) c.subaccounts
  principal : 0 < v.subaccountCount → v.deployedPrincipal = total (Subaccount.owed k) c.subaccounts
  deregisters : ∀ a c', a.vaultState = k → Step c (.vault (.deregisterSubaccount a)) c' →
    ∃ v', c'.vaults.lookup k = some v' ∧ v'.subaccountCount + 1 = v.subaccountCount ∧
      (v'.subaccountCount = 0 → v'.deployedPrincipal = 0)
  settles : ∀ a amount c', a.vaultState = k → Step c (.vault (.settleSubaccountLoss a amount)) c' →
    ∃ v', c'.vaults.lookup k = some v' ∧ v'.deployedPrincipal + amount.toNat = v.deployedPrincipal
  returns : ∀ a amount c', a.vaultState = k → 0 < v.subaccountCount →
    Step c (.vault (.operatorDeposit a amount)) c' → ∃ key s v', a.subaccount = some key ∧
      c.subaccounts.lookup key = some s ∧ c'.vaults.lookup k = some v' ∧
        c'.subaccounts = c.subaccounts.insert key { s with principal := s.principal - amount.toNat } ∧
          v'.deployedPrincipal + min amount.toNat s.principal = v.deployedPrincipal
  adopts : ∀ a address c', a.vaultState = k → v.subaccountCount = 0 →
    Step c (.vault (.registerSubaccount a address)) c' → ∃ s v', c'.vaults.lookup k = some v' ∧
      c'.subaccounts.lookup a.subaccount = some s ∧ s.principal = v.deployedPrincipal ∧
        v'.deployedPrincipal = v.deployedPrincipal

theorem Chain.RegistrySound.deregisters (sound : c.RegistrySound) {a : SubaccountAdmin}
    (ran : DeregisterSubaccount.Ran c a v s) : v.subaccountCount - 1 + 1 = v.subaccountCount ∧
      (v.subaccountCount - 1 = 0 → v.deployedPrincipal = 0) := by
  obtain ⟨count, principal⟩ := sound.exact a.vaultState v ran.vault
  obtain ⟨live, _⟩ := Chain.deployment_live ran.entry ran.entryVault v
  have lessCount := total_erase (Subaccount.counted a.vaultState) ran.entry
  have lessOwed := total_erase (Subaccount.owed a.vaultState) ran.entry
  obtain ⟨one, all⟩ := Subaccount.weight_here ran.entryVault
  have empty := ran.empty
  simp only [Chain.deployment] at count principal live
  refine ⟨by omega, fun last => ?_⟩
  have vacant := (DeregisterSubaccount.after c a v).deployment_vacant a.vaultState v
  simp only [Chain.deployment, DeregisterSubaccount.after] at vacant
  have owed := principal (by omega)
  omega

theorem Reachable.principal_exact (reach : Reachable c) (vault : c.vaults.lookup k = some v) :
    c.PrincipalExact k v := by
  have sound := reach.registry_sound
  have exact := sound.exact k v vault
  refine ⟨exact.count, exact.principal, fun a c' here taken => ?_, fun a amount c' here taken => ?_,
    fun a amount c' here some taken => ?_, fun a address c' here none taken => ?_⟩
  · subst here
    obtain ⟨w, s, ran, rfl⟩ := DeregisterSubaccount.handler_eq_ok taken.executed
    cases Option.some.inj (vault.symm.trans ran.vault)
    exact ⟨_, Finmap.lookup_insert _, sound.deregisters ran⟩
  · subst here
    obtain ⟨w, s, ata, ran, rfl⟩ := SettleSubaccountLoss.handler_eq_ok taken.executed
    cases Option.some.inj (vault.symm.trans ran.vault)
    obtain ⟨live, within⟩ := Chain.deployment_live ran.entry ran.entryVault v
    have count := exact.count
    have owed := exact.principal
    have shortfall := ran.shortfall
    simp only [Chain.deployment] at live within count owed
    refine ⟨_, Finmap.lookup_insert _, ?_⟩
    simp only
    omega
  · subst here
    obtain ⟨w, source, entry, paid, ran, rfl⟩ := OperatorDeposit.handler_eq_ok taken.executed
    cases Option.some.inj (vault.symm.trans ran.valid.vault)
    cases entry with
    | none => exact absurd some (of_decide_eq_false ran.registry)
    | some s =>
      obtain ⟨key, named, found, _, here⟩ := ran.valid.entry sound.entries
      obtain ⟨live, within⟩ := Chain.deployment_live found here v
      have owed := exact.principal some
      simp only [Chain.deployment] at within owed
      refine ⟨key, s, _, named, found, Finmap.lookup_insert _, OperatorTransfer.record_of_named named, ?_⟩
      simp only
      omega
  · subst here
    obtain ⟨w, ata, ran, rfl⟩ := RegisterSubaccount.handler_eq_ok taken.executed
    cases Option.some.inj (vault.symm.trans ran.vault)
    exact ⟨_, _, Finmap.lookup_insert _, Finmap.lookup_insert _, if_pos none, rfl⟩

end Step

namespace Sample

def custody : Pubkey := .key 5
def entry : Pubkey := .subaccount vault custody
def registration : SubaccountAdmin := ⟨vault, entry, mint, wallet custody, admin⟩
def through : OperatorTransfer := ⟨vault, reserve, wallet custody, mint, operator, some entry⟩

/-- Half of the deposit goes to a custody account that delegates more than that to the vault. -/
def registering : List Instruction :=
  [.token (.createAssociatedAccount custody mint),
    .token (.approve (wallet custody) vault custody 150000),
    .vault (.registerSubaccount registration custody),
    .vault (.operatorWithdraw through 100000)]

def registered : Chain := (Chain.genesis (some admin)).runAll (opening ++ registering)

def vaultRegistered : VaultState :=
  { vaultOpened with localAum := 100000, deployedAum := 100000, subaccountCount := 1, deployedPrincipal := 100000 }

theorem registered_vault : registered.vaults.lookup vault = some vaultRegistered := by decide +kernel

end Sample

open Sample in
theorem registered_principal_exact : registered.PrincipalExact vault vaultRegistered :=
  Reachable.principal_exact (Chain.runAll_reachable _ _) registered_vault

end Upshift
