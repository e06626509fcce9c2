import Upshift.Vault.Refinement

namespace Upshift
open Guard KeyedStore

section Step
variable {c c' : Chain} {i : Instruction} {k : Pubkey} {v v' : VaultState}

/-- The fields that `WellFormed` reads. -/
def VaultState.SameTerms (v v' : VaultState) : Prop :=
  v'.shareMint = v.shareMint ∧ v'.depositMint = v.depositMint ∧ v'.vaultVersion = v.vaultVersion ∧
    v'.withdrawalFee = v.withdrawalFee ∧ v'.aumIncreaseLimit = v.aumIncreaseLimit ∧
    v'.aumDecreaseLimit = v.aumDecreaseLimit ∧ v'.shareOffset = v.shareOffset ∧
    v'.withdrawalQueueAuthority = v.withdrawalQueueAuthority

theorem VaultState.SameTerms.refl (v : VaultState) : v.SameTerms v := ⟨rfl, rfl, rfl, rfl, rfl, rfl, rfl, rfl⟩

theorem VaultState.WellFormed.sameTerms (formed : v.WellFormed k) (same : v.SameTerms v') : v'.WellFormed k := by
  obtain ⟨shareMint, depositMint, vaultVersion, fee, increase, decrease, offset, queue⟩ := same
  exact ⟨by rw [depositMint, vaultVersion]; exact formed.key,
    by rw [shareMint, depositMint, vaultVersion]; exact formed.shareMint, fee ▸ formed.fee,
    increase ▸ formed.increase, decrease ▸ formed.decrease, formed.offset.congr offset, queue ▸ formed.queue⟩

theorem VaultState.WellFormed.configured (formed : v.WellFormed k) (change : v.Configured v') :
    v'.WellFormed k :=
  ⟨by rw [change.depositMint, change.vaultVersion]; exact formed.key,
    by rw [change.shareMint, change.depositMint, change.vaultVersion]; exact formed.shareMint,
    change.fee formed.fee, change.increase formed.increase, change.decrease formed.decrease,
    formed.offset.congr change.shareOffset, change.queue ▸ formed.queue⟩

theorem vault_terms {vaults : Store Pubkey VaultState} {k₀ : Pubkey} {v₀ w : VaultState}
    (found₀ : vaults.lookup k₀ = some v₀) (found : vaults.lookup k = some v)
    (found' : (vaults.insert k₀ w).lookup k = some v') (same : v₀.SameTerms w) : v.SameTerms v' :=
  rewritten_related VaultState.SameTerms.refl found₀ found found' same

/-- A step rewrites a vault by an admin setter, by its queue, or outside its terms. -/
theorem Step.terms (taken : Step c i c') (vault : c.vaults.lookup k = some v)
    (vault' : c'.vaults.lookup k = some v') :
    v.SameTerms v' ∨ v.Configured v' ∨
      (v' = { v with withdrawalQueueAuthority := withdrawalQueuePda k } ∧
        (c.queues.lookup (withdrawalQueuePda k)).isSome) ∨
      (∃ queue, i.detaches = some (k, queue) ∧ v.withdrawalQueue = some queue ∧
        v' = { v with withdrawalQueueAuthority := .default }) := by
  cases taken.move with
  | quiet _ _ vaults =>
    cases Option.some.inj ((vaults ▸ vault').symm.trans vault)
    exact Or.inl (.refl v)
  | configured _ found change _ vaults =>
    rcases lookup_rewritten vault (vaults ▸ vault') with ⟨rfl, rfl⟩ | ⟨_, rfl⟩
    · cases Option.some.inj (vault.symm.trans found)
      exact Or.inr (Or.inl change)
    · exact Or.inl (.refl _)
  | attached _ found _ _ key initialized =>
    rcases lookup_rewritten vault vault' with ⟨rfl, rfl⟩ | ⟨_, rfl⟩
    · cases Option.some.inj (vault.symm.trans found)
      subst key
      exact Or.inr (Or.inr (Or.inl ⟨rfl, initialized⟩))
    · exact Or.inl (.refl _)
  | detached label found attached _ vaults =>
    rcases lookup_rewritten vault (vaults ▸ vault') with ⟨rfl, rfl⟩ | ⟨_, rfl⟩
    · cases Option.some.inj (vault.symm.trans found)
      exact Or.inr (Or.inr (Or.inr ⟨_, label, attached, rfl⟩))
    · exact Or.inl (.refl _)
  | scheduled _ _ _ _ vaults =>
    cases Option.some.inj ((vaults ▸ vault').symm.trans vault)
    exact Or.inl (.refl v)
  | initialized _ ran =>
    rcases lookup_rewritten vault vault' with ⟨rfl, _⟩ | ⟨_, rfl⟩
    · cases ran.fresh.symm.trans vault
    · exact Or.inl (.refl _)
  | closed =>
    obtain ⟨_, before⟩ := lookup_erase_cases vault'
    cases Option.some.inj (before.symm.trans vault)
    exact Or.inl (.refl v)
  | opened | requested | expedited | cancelled | swept | banked =>
    cases Option.some.inj (vault'.symm.trans vault)
    exact Or.inl (.refl v)
  | deposited _ ran =>
    exact Or.inl (vault_terms ran.valid.vault vault vault' ⟨rfl, rfl, rfl, rfl, rfl, rfl, rfl, rfl⟩)
  | redeemed _ ran =>
    exact Or.inl (vault_terms ran.valid.vault vault vault' ⟨rfl, rfl, rfl, rfl, rfl, rfl, rfl, rfl⟩)
  | withdrew _ ran =>
    exact Or.inl (vault_terms ran.valid.vault vault vault' ⟨rfl, rfl, rfl, rfl, rfl, rfl, rfl, rfl⟩)
  | returned _ ran =>
    exact Or.inl (vault_terms ran.valid.vault vault vault' ⟨rfl, rfl, rfl, rfl, rfl, rfl, rfl, rfl⟩)
  | finalized _ ran =>
    exact Or.inl (vault_terms ran.redeem.valid.vault vault vault' ⟨rfl, rfl, rfl, rfl, rfl, rfl, rfl, rfl⟩)
  | reported _ ran =>
    exact Or.inl (vault_terms ran.vault vault vault' ⟨rfl, rfl, rfl, rfl, rfl, rfl, rfl, rfl⟩)
  | registered _ ran =>
    exact Or.inl (vault_terms ran.vault vault vault' ⟨rfl, rfl, rfl, rfl, rfl, rfl, rfl, rfl⟩)
  | deregistered _ ran =>
    exact Or.inl (vault_terms ran.vault vault vault' ⟨rfl, rfl, rfl, rfl, rfl, rfl, rfl, rfl⟩)
  | settled _ ran =>
    exact Or.inl (vault_terms ran.vault vault vault' ⟨rfl, rfl, rfl, rfl, rfl, rfl, rfl, rfl⟩)

theorem Step.formed (taken : Step c i c') (vault : c.vaults.lookup k = some v)
    (vault' : c'.vaults.lookup k = some v') (formed : v.WellFormed k) : v'.WellFormed k := by
  rcases taken.terms vault vault' with same | change | ⟨rfl, _⟩ | ⟨_, _, _, rfl⟩
  · exact formed.sameTerms same
  · exact formed.configured change
  · exact { formed with queue := Or.inr rfl }
  · exact { formed with queue := Or.inl rfl }

/-- A queue account is never closed. -/
theorem Step.queue_stays (taken : Step c i c') {q : Pubkey} (live : (c.queues.lookup q).isSome) :
    (c'.queues.lookup q).isSome := by
  have grown : ∀ k₀ q₀, ((c.queues.insert k₀ q₀).lookup q).isSome := by
    intro k₀ q₀
    rw [lookup_insert_ite]
    split
    · rfl
    · exact live
  cases taken.move with
  | quiet _ _ _ _ queues => exact queues ▸ live
  | configured _ _ _ _ _ _ queues => exact queues ▸ live
  | detached _ _ _ _ _ _ queues => exact queues ▸ live
  | scheduled _ _ _ _ _ _ queues => exact queues ▸ grown _ _
  | opened | requested | cancelled | finalized => exact grown _ _
  | _ => exact live

/-- A vault leaves only when it is closed. -/
theorem Step.vault_stays (taken : Step c i c') (vault : c.vaults.lookup k = some v) :
    (∃ v', c'.vaults.lookup k = some v') ∨ ∃ a m closed revoked, i = .vault (.closeVault a) ∧ k = a.vaultState ∧
      CloseVault.Ran c a v m closed revoked ∧ c' = CloseVault.after c a revoked := by
  have rewritten : ∀ k₀ w, ∃ v', (c.vaults.insert k₀ w).lookup k = some v' := by
    intro k₀ w
    rw [lookup_insert_ite]
    split
    · exact ⟨w, rfl⟩
    · exact ⟨v, vault⟩
  cases taken.move with
  | quiet _ _ vaults => exact Or.inl ⟨v, vaults ▸ vault⟩
  | scheduled _ _ _ _ vaults => exact Or.inl ⟨v, vaults ▸ vault⟩
  | configured _ _ _ _ vaults => exact Or.inl (vaults ▸ rewritten _ _)
  | detached _ _ _ _ vaults => exact Or.inl (vaults ▸ rewritten _ _)
  | @closed a v₀ m closed revoked label ran =>
    by_cases here : k = a.vaultState
    · subst here
      cases Option.some.inj (vault.symm.trans ran.vault)
      exact Or.inr ⟨a, m, closed, revoked, label, rfl, ran, rfl⟩
    · exact Or.inl ⟨v, (Finmap.lookup_erase_ne here).trans vault⟩
  | attached | reported | registered | deregistered | settled | initialized | deposited | redeemed | withdrew
  | returned | finalized => exact Or.inl (rewritten _ _)
  | opened | requested | cancelled | expedited | swept | banked => exact Or.inl ⟨v, vault⟩

/-- A vault that appears in a step was just initialized. -/
theorem Step.vault_new (taken : Step c i c') (absent : c.vaults.lookup k = none)
    (vault' : c'.vaults.lookup k = some v') :
    ∃ a admin operator feeRecipient vaultVersion shareOffset deposit withMint withReserve,
      i = .vault (.initializeVault a admin operator feeRecipient vaultVersion shareOffset) ∧ k = a.vaultState ∧
        Initialize.Ran c a vaultVersion.toNat shareOffset.toNat deposit withMint withReserve ∧
        c' = Initialize.after c a admin operator feeRecipient vaultVersion.toNat shareOffset.toNat withReserve := by
  have rewritten : ∀ {k₀ v₀ w}, c.vaults.lookup k₀ = some v₀ → (c.vaults.insert k₀ w).lookup k ≠ some v' := by
    intro k₀ v₀ w found found'
    rcases lookup_insert_cases found' with ⟨rfl, _⟩ | ⟨_, before⟩
    · cases absent.symm.trans found
    · cases absent.symm.trans before
  cases taken.move with
  | initialized label ran =>
    rcases lookup_insert_cases vault' with ⟨rfl, _⟩ | ⟨_, before⟩
    · exact ⟨_, _, _, _, _, _, _, _, _, label, rfl, ran, rfl⟩
    · cases absent.symm.trans before
  | quiet _ _ vaults => cases absent.symm.trans (vaults ▸ vault')
  | scheduled _ _ _ _ vaults => cases absent.symm.trans (vaults ▸ vault')
  | configured _ found _ _ vaults => exact absurd (vaults ▸ vault') (rewritten found)
  | detached _ found _ _ vaults => exact absurd (vaults ▸ vault') (rewritten found)
  | attached _ found => exact absurd vault' (rewritten found)
  | closed => cases absent.symm.trans (lookup_erase_cases vault').2
  | deposited _ ran => exact absurd vault' (rewritten ran.valid.vault)
  | redeemed _ ran => exact absurd vault' (rewritten ran.valid.vault)
  | withdrew _ ran => exact absurd vault' (rewritten ran.valid.vault)
  | returned _ ran => exact absurd vault' (rewritten ran.valid.vault)
  | finalized _ ran => exact absurd vault' (rewritten ran.redeem.valid.vault)
  | reported _ ran => exact absurd vault' (rewritten ran.vault)
  | registered _ ran => exact absurd vault' (rewritten ran.vault)
  | deregistered _ ran => exact absurd vault' (rewritten ran.vault)
  | settled _ ran => exact absurd vault' (rewritten ran.vault)
  | opened | requested | expedited | cancelled | swept | banked => cases absent.symm.trans vault'

/-- A mint that exists keeps its address from another vault. -/
theorem Initialize.Ran.mint_fresh {a : Initialize} {vaultVersion shareOffset : Nat} {deposit : Mint}
    {withMint withReserve : Bank}
    (ran : Initialize.Ran c a vaultVersion shareOffset deposit withMint withReserve) :
    c.bank.mints.lookup (.shareMint a.depositMint vaultVersion) = none := by
  obtain ⟨⟨fresh, _⟩, _⟩ := Bank.initializeMint_eq_ok.mp ran.creates
  exact ran.shareMintKey ▸ fresh

theorem Step.mint_stays (taken : Step c i c') {mint : Pubkey} (there : ∃ m, c.bank.mints.lookup mint = some m) :
    ∃ m, c'.bank.mints.lookup mint = some m := by
  obtain ⟨m, found⟩ := there
  obtain ⟨m', found', _⟩ := taken.respects.mint found
  exact ⟨m', found'⟩

/-- While the share mint is there, no vault comes to its address. -/
theorem Step.vault_old (taken : Step c i c') {depositMint : Pubkey} {vaultVersion : Nat}
    (there : ∃ m, c.bank.mints.lookup (.shareMint depositMint vaultVersion) = some m)
    (vault' : c'.vaults.lookup (.vaultState depositMint vaultVersion) = some v') :
    ∃ v, c.vaults.lookup (.vaultState depositMint vaultVersion) = some v := by
  cases vault : c.vaults.lookup (.vaultState depositMint vaultVersion) with
  | some v => exact ⟨v, rfl⟩
  | none =>
    obtain ⟨a, _, _, _, version, _, _, _, _, _, here, ran, _⟩ := taken.vault_new vault vault'
    have same := here.trans ran.key
    simp only [Pubkey.vaultState.injEq] at same
    obtain ⟨rfl, rfl⟩ := same
    obtain ⟨m, atMint⟩ := there
    cases ran.mint_fresh.symm.trans atMint

/-- The mint and the reserve of a vault that is still there after a step. -/
theorem Step.backs (taken : Step c i c') (bank : c.bank.Sound) (formed : v.WellFormed k)
    (backed : c.bank.Backs k v) (vault' : c'.vaults.lookup k = some v') : c'.bank.Backs k v := by
  by_cases program : (∃ t, i = .token t) ∨ ∃ a, i = .vault (.closeVault a)
  · refine (backed.respects taken.respects bank ?_).1
    rintro (signs | acts)
    · exact absurd (signs.symm.trans formed.derived) Bool.noConfusion
    · rcases program with ⟨t, rfl⟩ | ⟨a, rfl⟩
      · cases acts
      · obtain ⟨_, _, _, _, _, rfl⟩ := CloseVault.handler_eq_ok taken.executed
        exact (lookup_erase_cases vault').1 (List.mem_singleton.mp acts)
  · refine backed.keeps (taken.keeps (fun t label => program (Or.inl ⟨t, label⟩)) fun a label => ?_)
    exact program (Or.inr ⟨a, label⟩)

theorem VaultState.withdrawalQueue_eq {queue : Pubkey} (attached : v.withdrawalQueue = some queue) :
    v.withdrawalQueueAuthority = queue ∧ queue ≠ .default := by
  unfold VaultState.withdrawalQueue at attached
  split at attached
  · rename_i set
    cases attached
    exact ⟨rfl, set⟩
  · cases attached

theorem VaultState.withdrawalQueue_of {queue : Pubkey} (stored : v.withdrawalQueueAuthority = queue)
    (set : queue ≠ .default) : v.withdrawalQueue = some queue := by
  unfold VaultState.withdrawalQueue
  rw [stored, if_pos set]

theorem VaultState.WellFormed.queue_key (formed : v.WellFormed k) {queue : Pubkey}
    (attached : v.withdrawalQueue = some queue) : queue = .withdrawalQueue k := by
  obtain ⟨rfl, set⟩ := VaultState.withdrawalQueue_eq attached
  rcases formed.queue with unset | key
  · exact absurd unset set
  · exact key

/-- Only a release by the vault's admin takes a queue off its vault: a detach needs the signature of the
queue's address. -/
theorem Step.released (taken : Step c i c') (formed : v.WellFormed k) (vault : c.vaults.lookup k = some v)
    {queue : Pubkey} (attached : v.withdrawalQueue = some queue) (label : i.detaches = some (k, queue)) :
    ∃ a, i = .queue (.releaseVault a) ∧ a.vaultState = k ∧ a.admin = v.admin := by
  have signed := taken.signed
  unfold Instruction.detaches at label
  split at label
  · simp only [Option.some.injEq, Prod.mk.injEq] at label
    obtain ⟨_, rfl⟩ := label
    have signs := signed _ (List.mem_cons_of_mem _ List.mem_cons_self)
    rw [formed.queue_key attached] at signs
    cases signs
  · rename_i a
    simp only [Option.some.injEq, Prod.mk.injEq] at label
    obtain ⟨rfl, rfl⟩ := label
    obtain ⟨q, v₀, ran, _⟩ := ReleaseVault.handler_eq_ok taken.executed
    cases Option.some.inj (vault.symm.trans ran.vault)
    exact ⟨a, rfl, rfl, ran.admin.symm⟩
  · cases label

theorem Step.live (taken : Step c i c') (vault : c.vaults.lookup k = some v)
    (vault' : c'.vaults.lookup k = some v')
    (live : ∀ queue, v.withdrawalQueue = some queue → (c.queues.lookup queue).isSome) :
    ∀ queue, v'.withdrawalQueue = some queue → (c'.queues.lookup queue).isSome := by
  have kept : v'.withdrawalQueueAuthority = v.withdrawalQueueAuthority →
      ∀ queue, v'.withdrawalQueue = some queue → (c'.queues.lookup queue).isSome := by
    intro same queue attached
    simp only [VaultState.withdrawalQueue, same] at attached
    exact taken.queue_stays (live queue attached)
  rcases taken.terms vault vault' with same | change | ⟨rfl, initialized⟩ | ⟨_, _, _, rfl⟩
  · exact kept same.2.2.2.2.2.2.2
  · exact kept change.queue
  · intro queue attached
    obtain ⟨rfl, _⟩ := VaultState.withdrawalQueue_eq attached
    exact taken.queue_stays initialized
  · intro queue attached
    exact absurd (VaultState.withdrawalQueue_eq attached).1.symm (VaultState.withdrawalQueue_eq attached).2

theorem Initialize.Ran.sound {a : Initialize} {admin operator feeRecipient : Pubkey}
    {vaultVersion shareOffset : Nat} {deposit : Mint} {withMint withReserve : Bank}
    (ran : Initialize.Ran c a vaultVersion shareOffset deposit withMint withReserve) :
    (Initialize.after c a admin operator feeRecipient vaultVersion shareOffset withReserve).VaultSound a.vaultState
      (VaultState.init operator admin a.shareMint a.depositMint feeRecipient 0 vaultVersion shareOffset) := by
  obtain ⟨⟨vacant, _⟩, rfl⟩ := Bank.initializeMint_eq_ok.mp ran.creates
  obtain ⟨_, _, rfl⟩ := Bank.initializeAccount_eq_ok.mp ran.reserves
  have different : a.depositMint ≠ a.shareMint := by
    rw [ran.shareMintKey]
    exact (Pubkey.shareMint_ne_depositMint _ _).symm
  have key : VaultState.reserve (VaultState.init operator admin a.shareMint a.depositMint feeRecipient 0
      vaultVersion shareOffset) = a.vaultTokenAta := ran.reserveKey.symm
  constructor
  · exact ⟨ran.key, ran.shareMintKey, (by decide : 0 < 100000), (by decide : 20 ≤ bpsDenominator),
      (by decide : 20 ≤ bpsDenominator), Or.inr ran.offset, Or.inl rfl⟩
  · constructor
    · exact ⟨_, deposit, Finmap.lookup_insert _, (Finmap.lookup_insert_of_ne _ different).trans ran.depositMint,
        rfl, rfl, rfl⟩
    · rw [key]
      exact ⟨_, Finmap.lookup_insert _, rfl, rfl⟩
  · exact Nat.zero_le _
  · exact Nat.zero_le _
  · intro queue attached
    exact absurd (VaultState.withdrawalQueue_eq attached).1.symm (VaultState.withdrawalQueue_eq attached).2

/-- Every vault is sound. -/
def Chain.VaultsSound (c : Chain) : Prop := ∀ k v, c.vaults.lookup k = some v → c.VaultSound k v

theorem Step.vaults_sound (taken : Step c i c') (bank : c.bank.Sound) (sound : c.VaultsSound) :
    c'.VaultsSound := by
  intro k v' vault'
  cases vault : c.vaults.lookup k with
  | none =>
    obtain ⟨a, _, _, _, _, _, _, _, _, _, rfl, ran, rfl⟩ := taken.vault_new vault vault'
    simp only [Initialize.after, Finmap.lookup_insert, Option.some.injEq] at vault'
    subst vault'
    exact ran.sound
  | some v =>
    have before := sound k v vault
    have book := taken.book bank before.formed before.backed vault vault'
    have formed := taken.formed vault vault' before.formed
    have backed := taken.backs bank before.formed before.backed vault'
    have same : v'.shareMint = v.shareMint ∧ v'.depositMint = v.depositMint ∧ v'.vaultVersion = v.vaultVersion := by
      obtain ⟨depositMint, vaultVersion⟩ := formed.mint_eq before.formed.key
      rw [formed.shareMint, before.formed.shareMint, depositMint, vaultVersion]
      exact ⟨rfl, rfl, rfl⟩
    exact ⟨formed, backed.congr same.1 same.2.1 same.2.2, book.solvent before.solvent,
      book.deployed_le before.deployed, taken.live vault vault' before.live⟩

theorem Reachable.vaults_sound {c : Chain} (reach : Reachable c) : c.VaultsSound := by
  refine reach.preserves ?_ ?_ fun _ _ _ before sound taken => taken.vaults_sound (Reachable.bank_sound before) sound
  · intro authority k v vault
    cases vault
  · intro t vaults before sound k v vault
    obtain ⟨v₀, vault₀, stored⟩ := before.found vault
    exact stored.sound (sound k v₀ vault₀)

end Step

end Upshift
