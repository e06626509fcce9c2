import Upshift.Vault.Price

namespace Upshift
open Guard KeyedStore History

/-- How long a nomination is valid. -/
def oneDayInSeconds : Int := 24 * 60 * 60

/-- The vault whose next admin an instruction nominates or installs. -/
def Instruction.hands : Instruction → Option Pubkey
  | .vault (.nominateAdmin a _ _) => some a.vaultState
  | .vault (.acceptAdminNomination a) => some a.vaultState
  | _ => none

/-- The vault of an instruction that only its admin may send, and the key presented as the admin. -/
def Instruction.asAdmin : Instruction → Option (Pubkey × Pubkey)
  | .vault (.registerSubaccount a _) | .vault (.settleSubaccountLoss a _) => some (a.vaultState, a.admin)
  | .vault (.deregisterSubaccount a) => some (a.vaultState, a.admin)
  | .vault (.setWithdrawalFee a _) | .vault (.nominateAdmin a _ _) => some (a.vaultState, a.admin)
  | .vault (.setOperator a _) | .vault (.setFeeRecipient a _) => some (a.vaultState, a.admin)
  | .vault (.setAumLimits a _ _) | .vault (.attachWithdrawalQueue a _) => some (a.vaultState, a.admin)
  | .vault (.detachWithdrawalQueue a _) | .vault (.pause a) | .vault (.unpause a) => some (a.vaultState, a.admin)
  | .vault (.closeVault a) => some (a.vaultState, a.admin)
  | .vault (.createShareTokenMetadata a _ _ _) | .vault (.updateShareTokenMetadata a _ _) => some (a.vaultState, a.admin)
  | .queue (.initializeQueue a _) => some (a.vaultState, a.admin)
  | .queue (.setCooldown a _) | .queue (.setFulfillmentWindow a _) => some (a.vaultState, a.admin)
  | .queue (.releaseVault a) => some (a.vaultState, a.admin)
  | .queue (.sweepEscrowShares a) => some (a.vaultState, a.admin)
  | _ => none

/-- A clock reading that goes back. -/
def Instruction.rewinds (i : Instruction) (c : Chain) : Bool :=
  match i with
  | .clock now => now < c.clock
  | _ => false

/-- What a step does to the nominations and to the admins of the vaults that stay. -/
inductive AdminMove (c : Chain) (i : Instruction) : Chain → Prop
  | kept {c'} (other : i.hands = none) (nominations : c'.nominations = c.nominations)
      (admins : ∀ {k v v'}, c.vaults.lookup k = some v → c'.vaults.lookup k = some v' → v'.admin = v.admin)
      (clock : c'.clock = c.clock ∨ i = .clock c'.clock) : AdminMove c i c'
  | nominated {a pda nominee v} (label : i = .vault (.nominateAdmin a pda nominee))
      (vault : c.vaults.lookup a.vaultState = some v) (key : a.vaultState = .vaultState a.depositMint v.vaultVersion)
      (admin : v.admin = a.admin) (pdaKey : pda = .nominatedAdmin a.depositMint v.vaultVersion) :
      AdminMove c i { c with nominations := c.nominations.insert pda ⟨nominee, c.clock + oneDayInSeconds⟩ }
  | accepted {a v n} (label : i = .vault (.acceptAdminNomination a)) (vault : c.vaults.lookup a.vaultState = some v)
      (key : a.vaultState = .vaultState a.depositMint v.vaultVersion)
      (pdaKey : a.nominatedAdminPda = .nominatedAdmin a.depositMint v.vaultVersion)
      (nomination : c.nominations.lookup a.nominatedAdminPda = some n) (nominee : n.nominatedAdmin = a.newAdmin)
      (valid : c.clock < n.validUntil) :
      AdminMove c i { c with
        vaults := c.vaults.insert a.vaultState { v with admin := n.nominatedAdmin }
        nominations := c.nominations.erase a.nominatedAdminPda }

section Step
variable {c c' : Chain} {i : Instruction} {k key : Pubkey} {v v' : VaultState}

theorem admin_kept {vaults : Store Pubkey VaultState} {k₀ : Pubkey} {v₀ w : VaultState}
    (found₀ : vaults.lookup k₀ = some v₀) (same : w.admin = v₀.admin) (found : vaults.lookup k = some v)
    (found' : (vaults.insert k₀ w).lookup k = some v') : v'.admin = v.admin := by
  rcases lookup_rewritten found found' with ⟨rfl, rfl⟩ | ⟨_, rfl⟩
  · cases Option.some.inj (found₀.symm.trans found)
    exact same
  · rfl

theorem VaultAdmin.update_admin_move {a : VaultAdmin} {change : VaultState → Result VaultState}
    (ran : a.update c change = .ok c') (other : i.hands = none)
    (keeps : ∀ v v', change v = .ok v' → v'.admin = v.admin) : AdminMove c i c' := by
  obtain ⟨v, v', vault, _, _, changed, rfl⟩ := VaultAdmin.update_eq_ok ran
  exact .kept other rfl (admin_kept vault (keeps v v' changed)) (Or.inl rfl)

theorem QueueAdmin.update_admin_move {a : QueueAdmin} {change : WithdrawalQueue → Result WithdrawalQueue}
    (ran : a.update c change = .ok c') (other : i.hands = none) : AdminMove c i c' := by
  obtain ⟨_, _, _, _, _, _, _, _, _, rfl⟩ := QueueAdmin.update_eq_ok ran
  exact .kept other rfl (fun found found' => by cases Option.some.inj (found.symm.trans found'); rfl) (Or.inl rfl)

theorem Chain.admins_same {vaults : Store Pubkey VaultState} (same : vaults = c.vaults) :
    ∀ {k v v'}, c.vaults.lookup k = some v → vaults.lookup k = some v' → v'.admin = v.admin := by
  intro k v v' found found'
  cases Option.some.inj (found.symm.trans (same ▸ found'))
  rfl

/-- The steps that the moves only bound. -/
theorem VaultInstruction.admin_move {j : VaultInstruction} (ran : c.executeVault j = .ok c')
    (label : (Instruction.vault j).quiet ∨ ((Instruction.vault j).configures).isSome ∨
      ((Instruction.vault j).detaches).isSome) : AdminMove c (.vault j) c' := by
  cases j with
  | initializeConfig =>
    simp only [Chain.executeVault, InitializeConfig.handler, bind_eq_ok, require_eq_ok, pure_eq_ok,
      exists_const] at ran
    obtain ⟨_, _, _, rfl⟩ := ran
    exact .kept rfl rfl (Chain.admins_same rfl) (Or.inl rfl)
  | setConfigAuthority =>
    simp only [Chain.executeVault, SetConfigAuthority.handler, bind_eq_ok, require_eq_ok, pure_eq_ok,
      exists_const] at ran
    obtain ⟨_, _, _, _, rfl⟩ := ran
    exact .kept rfl rfl (Chain.admins_same rfl) (Or.inl rfl)
  | overrideConfigAuthority =>
    simp only [Chain.executeVault, OverrideConfigAuthority.handler, bind_eq_ok, require_eq_ok, pure_eq_ok,
      exists_const] at ran
    obtain ⟨_, _, _, _, rfl⟩ := ran
    exact .kept rfl rfl (Chain.admins_same rfl) (Or.inl rfl)
  | setWithdrawalFee =>
    refine VaultAdmin.update_admin_move ran rfl fun v v' changed => ?_
    simp only [bind_eq_ok, require_eq_ok, pure_eq_ok, exists_const] at changed
    obtain ⟨_, rfl⟩ := changed
    rfl
  | setOperator =>
    refine VaultAdmin.update_admin_move ran rfl fun v v' changed => ?_
    simp only [bind_eq_ok, require_eq_ok, pure_eq_ok, exists_const] at changed
    obtain ⟨_, rfl⟩ := changed
    rfl
  | setAumLimits =>
    refine VaultAdmin.update_admin_move ran rfl fun v v' changed => ?_
    simp only [bind_eq_ok, require_eq_ok, pure_eq_ok, exists_const] at changed
    obtain ⟨_, _, rfl⟩ := changed
    rfl
  | detachWithdrawalQueue =>
    refine VaultAdmin.update_admin_move ran rfl fun v v' changed => ?_
    simp only [bind_eq_ok, okOr_eq_ok, require_eq_ok, pure_eq_ok, exists_const] at changed
    obtain ⟨_, _, _, rfl⟩ := changed
    rfl
  | setFeeRecipient | pause | unpause =>
    refine VaultAdmin.update_admin_move ran rfl fun v v' changed => ?_
    cases pure_eq_ok.mp changed
    rfl
  | createShareTokenMetadata | updateShareTokenMetadata =>
    obtain ⟨_, _, rfl⟩ := ShareTokenMetadata.invoke_eq_ok.mp ran
    exact .kept rfl rfl (Chain.admins_same rfl) (Or.inl rfl)
  | nominateAdmin a pda nominee =>
    simp only [Chain.executeVault, NominateAdmin.handler, NominatedAdmin.init, bind_eq_ok, require_eq_ok, pure_eq_ok,
      exists_const] at ran
    obtain ⟨v, accounts, pdaKey, _, ⟨_, rfl⟩, rfl⟩ := ran
    obtain ⟨vault, key, admin⟩ := VaultAdmin.accounts_eq_ok accounts
    exact .nominated rfl vault key admin pdaKey
  | acceptAdminNomination a =>
    simp only [Chain.executeVault, AcceptAdminNomination.handler, NominatedAdmin.validAcceptNomination, bind_eq_ok,
      Chain.vaultAt_eq_ok, fetch_eq_ok, require_eq_ok, pure_eq_ok, exists_const] at ran
    obtain ⟨v, ⟨vault, _, key⟩, n, nomination, pdaKey, ⟨nominee, valid⟩, rfl⟩ := ran
    exact .accepted rfl vault key pdaKey nomination (of_decide_eq_true nominee) (of_decide_eq_true valid)
  | _ =>
    simp only [Instruction.quiet, Instruction.configures, Instruction.detaches, Option.isSome_none,
      Bool.false_eq_true, or_false] at label

theorem QueueInstruction.admin_move {j : QueueInstruction} (ran : c.executeQueue j = .ok c')
    (label : ((Instruction.queue j).schedules).isSome ∨ ((Instruction.queue j).detaches).isSome) :
    AdminMove c (.queue j) c' := by
  cases j with
  | setCooldown a seconds =>
    have ran : SetCooldown.handler c a seconds.toNat = .ok c' := ran
    exact QueueAdmin.update_admin_move ran rfl
  | setFulfillmentWindow a seconds =>
    have ran : SetFulfillmentWindow.handler c a seconds.toNat = .ok c' := ran
    exact QueueAdmin.update_admin_move ran rfl
  | releaseVault =>
    obtain ⟨q, v, spec, rfl⟩ := ReleaseVault.handler_eq_ok ran
    exact .kept rfl rfl (admin_kept spec.vault rfl) (Or.inl rfl)
  | _ => simp only [Instruction.schedules, Instruction.detaches, Option.isSome_none, Bool.false_eq_true, or_self] at label

theorem Instruction.deposits_hands {a : Deposit} {amount minSharesOut : Nat}
    (label : i.deposits = some (a, amount, minSharesOut)) : i.hands = none := by
  obtain ⟨_, rfl, rfl, _⟩ | ⟨_, _, rfl, rfl, _⟩ := Instruction.deposits_eq_some label
  · rfl
  · rfl

theorem Instruction.redeems_hands {a : Redeem} {shares minAssetsOut : Nat}
    (label : i.redeems = some (a, shares, minAssetsOut)) : i.hands = none := by
  obtain ⟨_, rfl, rfl, _⟩ | ⟨_, _, rfl, rfl, _⟩ := Instruction.redeems_eq_some label
  · rfl
  · rfl

/-- Every successful step is one of these moves. -/
theorem Step.admin_move (taken : Step c i c') : AdminMove c i c' := by
  have ran := taken.executed
  cases taken.move with
  | quiet label =>
    cases i with
    | vault j => exact VaultInstruction.admin_move ran (Or.inl label)
    | clock now =>
      simp only [Chain.execute, bind_eq_ok, require_eq_ok, pure_eq_ok, exists_const] at ran
      obtain ⟨_, rfl⟩ := ran
      exact .kept rfl rfl (Chain.admins_same rfl) (Or.inr rfl)
    | setUpgradeAuthority =>
      cases pure_eq_ok.mp ran
      exact .kept rfl rfl (Chain.admins_same rfl) (Or.inl rfl)
    | queue => cases label
    | token => cases label
  | configured label =>
    cases i with
    | vault j => exact VaultInstruction.admin_move ran (Or.inr (Or.inl (Option.isSome_of_eq_some label)))
    | _ => cases label
  | detached label =>
    cases i with
    | vault j => exact VaultInstruction.admin_move ran (Or.inr (Or.inr (Option.isSome_of_eq_some label)))
    | queue j => exact QueueInstruction.admin_move ran (Or.inr (Option.isSome_of_eq_some label))
    | _ => cases label
  | scheduled label =>
    cases i with
    | queue j => exact QueueInstruction.admin_move ran (Or.inl (Option.isSome_of_eq_some label))
    | _ => cases label
  | attached label found => exact .kept (label ▸ rfl) rfl (admin_kept found rfl) (Or.inl rfl)
  | reported label spec => exact .kept (label ▸ rfl) rfl (admin_kept spec.vault rfl) (Or.inl rfl)
  | registered label spec => exact .kept (label ▸ rfl) rfl (admin_kept spec.vault rfl) (Or.inl rfl)
  | deregistered label spec => exact .kept (label ▸ rfl) rfl (admin_kept spec.vault rfl) (Or.inl rfl)
  | settled label spec => exact .kept (label ▸ rfl) rfl (admin_kept spec.vault rfl) (Or.inl rfl)
  | initialized label spec =>
    refine .kept (label ▸ rfl) rfl (fun found found' => ?_) (Or.inl rfl)
    rcases lookup_rewritten found found' with ⟨rfl, _⟩ | ⟨_, rfl⟩
    · cases spec.fresh.symm.trans found
    · rfl
  | closed label =>
    refine .kept (label ▸ rfl) rfl (fun found found' => ?_) (Or.inl rfl)
    cases Option.some.inj (found.symm.trans (lookup_erase_cases found').2)
    rfl
  | deposited label spec =>
    exact .kept (Instruction.deposits_hands label) rfl (admin_kept spec.valid.vault rfl) (Or.inl rfl)
  | redeemed label spec =>
    exact .kept (Instruction.redeems_hands label) rfl (admin_kept spec.valid.vault rfl) (Or.inl rfl)
  | withdrew label spec => exact .kept (label ▸ rfl) rfl (admin_kept spec.valid.vault rfl) (Or.inl rfl)
  | returned label spec => exact .kept (label ▸ rfl) rfl (admin_kept spec.valid.vault rfl) (Or.inl rfl)
  | finalized label spec => exact .kept (label ▸ rfl) rfl (admin_kept spec.redeem.valid.vault rfl) (Or.inl rfl)
  | opened label | requested label | cancelled label | expedited label | swept label | banked label =>
    exact .kept (label ▸ rfl) rfl (Chain.admins_same rfl) (Or.inl rfl)

/-- Whoever passes a check for the admin is the admin. -/
theorem Step.as_admin (taken : Step c i c') (presented : i.asAdmin = some (k, key)) :
    ∃ v, c.vaults.lookup k = some v ∧ v.admin = key := by
  have ran := taken.executed
  have updated : ∀ {a : VaultAdmin} {change : VaultState → Result VaultState}, a.update c change = .ok c' →
      ∃ v, c.vaults.lookup a.vaultState = some v ∧ v.admin = a.admin := by
    intro a change ran
    obtain ⟨v, _, vault, _, admin, _⟩ := VaultAdmin.update_eq_ok ran
    exact ⟨v, vault, admin⟩
  have scheduled : ∀ {a : QueueAdmin} {change : WithdrawalQueue → Result WithdrawalQueue}, a.update c change = .ok c' →
      ∃ v, c.vaults.lookup a.vaultState = some v ∧ v.admin = a.admin := by
    intro a change ran
    obtain ⟨_, v, _, _, _, _, vault, admin, _⟩ := QueueAdmin.update_eq_ok ran
    exact ⟨v, vault, admin⟩
  unfold Instruction.asAdmin at presented
  split at presented <;> cases presented
  · obtain ⟨v, _, spec, _⟩ := RegisterSubaccount.handler_eq_ok ran
    exact ⟨v, spec.vault, spec.admin⟩
  · obtain ⟨v, _, _, spec, _⟩ := SettleSubaccountLoss.handler_eq_ok ran
    exact ⟨v, spec.vault, spec.admin⟩
  · obtain ⟨v, _, spec, _⟩ := DeregisterSubaccount.handler_eq_ok ran
    exact ⟨v, spec.vault, spec.admin⟩
  · exact updated ran
  · simp only [Chain.execute, Chain.executeVault, NominateAdmin.handler, bind_eq_ok] at ran
    obtain ⟨v, accounts, _⟩ := ran
    obtain ⟨vault, _, admin⟩ := VaultAdmin.accounts_eq_ok accounts
    exact ⟨v, vault, admin⟩
  · exact updated ran
  · exact updated ran
  · exact updated ran
  · exact updated ran
  · exact updated ran
  · exact updated ran
  · exact updated ran
  · obtain ⟨v, _, _, _, spec, _⟩ := CloseVault.handler_eq_ok ran
    exact ⟨v, spec.vault, spec.admin⟩
  · obtain ⟨⟨v, valid⟩, _⟩ := ShareTokenMetadata.invoke_eq_ok.mp ran
    exact ⟨v, valid.vault, valid.admin.symm⟩
  · obtain ⟨⟨v, valid⟩, _⟩ := ShareTokenMetadata.invoke_eq_ok.mp ran
    exact ⟨v, valid.vault, valid.admin.symm⟩
  · obtain ⟨v, _, _, _, spec, _⟩ := InitializeQueue.handler_eq_ok ran
    exact ⟨v, spec.vault, spec.admin⟩
  · rename_i a seconds
    have ran : SetCooldown.handler c a seconds.toNat = .ok c' := ran
    exact scheduled ran
  · rename_i a seconds
    have ran : SetFulfillmentWindow.handler c a seconds.toNat = .ok c' := ran
    exact scheduled ran
  · obtain ⟨_, v, spec, _⟩ := ReleaseVault.handler_eq_ok ran
    exact ⟨v, spec.vault, spec.admin⟩
  · obtain ⟨_, v, _, _, spec, _⟩ := SweepEscrowShares.handler_eq_ok.mp ran
    exact ⟨v, spec.vault, spec.admin⟩

/-- A step changes the admin of a vault only by installing its nominee. -/
theorem Step.admin_changes (taken : Step c i c') (vault : c.vaults.lookup k = some v)
    (vault' : c'.vaults.lookup k = some v') :
    v'.admin = v.admin ∨ ∃ a, i = .vault (.acceptAdminNomination a) ∧ a.vaultState = k ∧ v'.admin = a.newAdmin := by
  cases taken.admin_move with
  | kept _ _ admins => exact Or.inl (admins vault vault')
  | nominated => exact Or.inl (Chain.admins_same rfl vault vault')
  | accepted label found key _ _ nominee =>
    rcases lookup_rewritten vault vault' with ⟨rfl, rfl⟩ | ⟨_, rfl⟩
    · exact Or.inr ⟨_, label, rfl, nominee⟩
    · exact Or.inl rfl

theorem Step.clock_le (taken : Step c i c') (forward : i.rewinds c = false) : c.clock ≤ c'.clock := by
  cases taken.admin_move with
  | nominated => exact le_rfl
  | accepted => exact le_rfl
  | kept _ _ _ clock =>
    rcases clock with same | label
    · exact same.ge
    · rw [label] at forward
      exact Int.not_lt.mp (of_decide_eq_false forward)

end Step

/-- The nomination of `nominee` in the chain `t`: made by the vault's admin, and since then neither replaced nor
used, under the same admin. -/
structure Nominated (k : Pubkey) (a : VaultAdmin) (pda nominee : Pubkey) (t : Chain)
    (later earlier history : List (Chain × Instruction)) : Prop where
  made : history = later ++ (t, .vault (.nominateAdmin a pda nominee)) :: earlier
  vault : a.vaultState = k
  maker : ∃ v, t.vaults.lookup k = some v ∧ v.admin = a.admin
  latest : ∀ event ∈ later, event.2.hands ≠ some k
  kept : ∀ event ∈ later, ∀ v, event.1.vaults.lookup k = some v → v.admin = a.admin

section Run
variable {c c₀ c' t : Chain} {i : Instruction} {k key pda nominee mint : Pubkey} {version : Nat} {v v' : VaultState}
  {a : VaultAdmin} {n : NominatedAdmin} {later earlier history : List (Chain × Instruction)}

theorem Nominated.next (nominated : Nominated k a pda nominee t later earlier history) (other : i.hands ≠ some k)
    (same : ∀ v, c.vaults.lookup k = some v → v.admin = a.admin) :
    Nominated k a pda nominee t ((c, i) :: later) earlier ((c, i) :: history) := by
  obtain ⟨rfl, vault, maker, latest, kept⟩ := nominated
  exact ⟨rfl, vault, maker, List.forall_mem_cons.mpr ⟨other, latest⟩, List.forall_mem_cons.mpr ⟨same, kept⟩⟩

/-- A nomination account holds the last nomination of its vault, which waits for its vault's admin to be
replaced. -/
theorem nomination_pending (first : c₀.Genesis) (run : Run Step c₀ history c)
    (found : c.nominations.lookup (.nominatedAdmin mint version) = some n) :
    ∃ a pda t later earlier, Nominated (.vaultState mint version) a pda n.nominatedAdmin t later earlier history ∧
      n.validUntil = t.clock + oneDayInSeconds ∧ (∃ m, c.bank.mints.lookup (.shareMint mint version) = some m) ∧
        ∀ v, c.vaults.lookup (.vaultState mint version) = some v → v.admin = a.admin := by
  induction run generalizing n with
  | start =>
    obtain ⟨_, rfl⟩ := first
    cases found
  | @next history c i c' previous taken ih =>
    have waits : ∀ {n}, c.nominations.lookup (.nominatedAdmin mint version) = some n →
        i.hands ≠ some (.vaultState mint version) → ∃ a pda t later earlier,
          Nominated (.vaultState mint version) a pda n.nominatedAdmin t later earlier ((c, i) :: history) ∧
          n.validUntil = t.clock + oneDayInSeconds ∧ (∃ m, c'.bank.mints.lookup (.shareMint mint version) = some m) ∧
            ∀ v, c'.vaults.lookup (.vaultState mint version) = some v → v.admin = a.admin := by
      intro n found other
      obtain ⟨a, pda, t, later, earlier, nominated, valid, there, same⟩ := ih found
      refine ⟨a, pda, t, _, earlier, nominated.next other same, valid, taken.mint_stays there, fun v' vault' => ?_⟩
      obtain ⟨v, vault⟩ := taken.vault_old there vault'
      rcases taken.admin_changes vault vault' with kept | ⟨a', label, here, _⟩
      · exact kept.trans (same v vault)
      · exact absurd (label ▸ congrArg some here) other
    cases taken.admin_move with
    | kept other nominations =>
      rw [nominations] at found
      refine waits found fun here => ?_
      cases other.symm.trans here
    | @nominated a pda nominee v label vault key admin pdaKey =>
      subst label
      rcases lookup_insert_cases found with ⟨here, rfl⟩ | ⟨different, before⟩
      · have same := here.trans pdaKey
        simp only [Pubkey.nominatedAdmin.injEq] at same
        obtain ⟨rfl, rfl⟩ := same
        have sound := Reachable.vaults_sound ⟨c₀, history, first.initial, previous⟩ _ v vault
        have version := key.symm.trans sound.formed.key
        simp only [Pubkey.vaultState.injEq, and_true] at version
        obtain ⟨m, _, issued, _⟩ := sound.backed.issued
        rw [sound.formed.shareMint, ← version] at issued
        refine ⟨a, pda, c, [], history, ⟨rfl, key, ⟨v, key ▸ vault, admin⟩, fun _ => ?_, fun _ => ?_⟩, rfl,
          ⟨m, issued⟩, fun w again => ?_⟩
        · exact fun member => absurd member List.not_mem_nil
        · exact fun member => absurd member List.not_mem_nil
        · cases Option.some.inj (vault.symm.trans (key ▸ again))
          exact admin
      · refine waits before fun same => different ?_
        have key := key.symm.trans (Option.some.inj same)
        simp only [Pubkey.vaultState.injEq] at key
        rw [pdaKey, key.1, key.2]
    | @accepted a v n' label vault key pdaKey nomination nominee valid =>
      subst label
      obtain ⟨different, before⟩ := lookup_erase_cases found
      refine waits before fun same => different ?_
      have key := key.symm.trans (Option.some.inj same)
      simp only [Pubkey.vaultState.injEq] at key
      rw [pdaKey, key.1, key.2]

/-- The chain has seen no reading of the clock after its present one. -/
theorem clock_past (run : Run Step c₀ history c) (forward : ∀ event ∈ history, event.2.rewinds event.1 = false) :
    ∀ event ∈ history, event.1.clock ≤ c.clock := by
  induction run with
  | start => exact fun _ member => absurd member List.not_mem_nil
  | @next history c i c' previous taken ih =>
    obtain ⟨now, past⟩ := List.forall_mem_cons.mp forward
    have onward := taken.clock_le now
    exact List.forall_mem_cons.mpr ⟨onward, fun event member => (ih past event member).trans onward⟩

/-- An acceptance by `key` for the vault at `k`. -/
def InstalledIn (history : List (Chain × Instruction)) (k key : Pubkey) : Prop :=
  ∃ t a, (t, .vault (.acceptAdminNomination a)) ∈ history ∧ a.vaultState = k ∧ a.newAdmin = key

/-- A key that is not the admin of a vault becomes it by an acceptance only. -/
theorem admin_installed (run : Run Step c history c')
    (there : ∃ m, c.bank.mints.lookup (.shareMint mint version) = some m)
    (other : ∀ v, c.vaults.lookup (.vaultState mint version) = some v → v.admin ≠ key)
    (vault' : c'.vaults.lookup (.vaultState mint version) = some v') (admin : v'.admin = key) :
    InstalledIn history (.vaultState mint version) key := by
  induction run generalizing v' with
  | start => exact absurd admin (other v' vault')
  | @next history t i u previous taken ih =>
    have still := previous.invariant there fun _ _ _ before step => step.mint_stays before
    obtain ⟨w, vault⟩ := taken.vault_old still vault'
    rcases taken.admin_changes vault vault' with kept | ⟨a, label, here, installed⟩
    · obtain ⟨t', a, member, rest⟩ := ih vault (kept.symm.trans admin)
      exact ⟨t', a, List.mem_cons_of_mem _ member, rest⟩
    · exact ⟨t, a, label ▸ List.mem_cons_self, here, installed.symm.trans admin⟩

/-- Two events of one history, the first of which has no event like the second after it. -/
theorem after_last {α : Type} {x y : α} {xs ys xs' ys' : List α} (same : xs ++ x :: ys = xs' ++ y :: ys')
    (none : y ∉ xs) (different : y ≠ x) : ∃ rest, xs' = xs ++ x :: rest := by
  rcases List.append_eq_append_iff.mp same with ⟨as, rfl, tail⟩ | ⟨bs, rfl, tail⟩
  · cases as with
    | nil => exact absurd (List.cons.inj tail).1.symm different
    | cons z rest =>
      obtain ⟨rfl, _⟩ := List.cons.inj tail
      exact ⟨rest, rfl⟩
  · cases bs with
    | nil => exact absurd (List.cons.inj tail).1 different
    | cons z rest =>
      obtain ⟨rfl, _⟩ := List.cons.inj tail
      exact absurd (List.mem_append_right _ List.mem_cons_self) none

/-- An acceptance installs the most recent nomination, made within a day by the admin it replaces, and newer than
every acceptance before. -/
structure Installs (history : List (Chain × Instruction)) (c : Chain) (k admin nominee : Pubkey) (a : VaultAdmin)
    (pda : Pubkey) (t : Chain) (later earlier : List (Chain × Instruction)) : Prop where
  nominated : Nominated k a pda nominee t later earlier history
  admin : a.admin = admin
  since : t.clock ≤ c.clock
  valid : c.clock < t.clock + oneDayInSeconds
  unexpired : ∀ event ∈ later, event.1.clock < t.clock + oneDayInSeconds
  unused : ∀ later' u a' earlier', history = later' ++ (u, .vault (.acceptAdminNomination a')) :: earlier' →
    a'.vaultState = k → ∃ rest, later' = later ++ (t, .vault (.nominateAdmin a pda nominee)) :: rest

/-- What a step can do to the admin of the vault at `k`, and what is left to a former admin. -/
structure Handover (history : List (Chain × Instruction)) (c : Chain) (i : Instruction) (c' : Chain) (k : Pubkey)
    (v v' : VaultState) : Prop where
  changes : v'.admin ≠ v.admin → ∃ a, i = .vault (.acceptAdminNomination a) ∧ a.vaultState = k
  installs : ∀ a, i = .vault (.acceptAdminNomination a) → a.vaultState = k →
    v'.admin = a.newAdmin ∧ ∃ b pda t later earlier, Installs history c k v.admin a.newAdmin b pda t later earlier
  former : v'.admin ≠ v.admin → ∀ after d j d', Run Step c' after d → Step d j d' →
    j.asAdmin = some (k, v.admin) → InstalledIn after k v.admin
  expedites : v'.admin ≠ v.admin → ∀ after d a expectedSequence d', Run Step c' after d →
    Step d (.queue (.expediteRequest a expectedSequence)) d' → a.vaultState = k → a.authority = v.admin →
      InstalledIn after k v.admin ∨ ∃ w, d.vaults.lookup k = some w ∧ w.operator = v.admin

theorem Installs.of_accepted (first : c₀.Genesis) (run : Run Step c₀ history c)
    (forward : ∀ event ∈ history, event.2.rewinds event.1 = false) {b : AcceptAdminNomination}
    (vault : c.vaults.lookup b.vaultState = some v) (key : b.vaultState = .vaultState b.depositMint v.vaultVersion)
    (pdaKey : b.nominatedAdminPda = .nominatedAdmin b.depositMint v.vaultVersion)
    (nomination : c.nominations.lookup b.nominatedAdminPda = some n) (nominee : n.nominatedAdmin = b.newAdmin)
    (valid : c.clock < n.validUntil) :
    ∃ a pda t later earlier, Installs history c b.vaultState v.admin b.newAdmin a pda t later earlier := by
  rw [pdaKey] at nomination
  obtain ⟨a, pda, t, later, earlier, nominated, until', _, same⟩ := nomination_pending first run nomination
  rw [← key, nominee] at nominated
  rw [until'] at valid
  have clocks := clock_past run forward
  rw [nominated.made] at clocks
  refine ⟨a, pda, t, later, earlier, nominated, (same v (key ▸ vault)).symm,
    clocks _ (List.mem_append_right _ List.mem_cons_self), valid, fun event member => ?_, ?_⟩
  · exact (clocks event (List.mem_append_left _ member)).trans_lt valid
  · intro later' u a' earlier' split here
    refine after_last (nominated.made.symm.trans split) (fun member => ?_) fun same => ?_
    · exact nominated.latest _ member (congrArg some here)
    · cases same

/-- In every run whose clock does not go back, each step hands a vault over safely. -/
theorem admin_handover (first : c₀.Genesis) (run : Run Step c₀ history c)
    (forward : ∀ event ∈ history, event.2.rewinds event.1 = false) (taken : Step c i c')
    (vault : c.vaults.lookup k = some v) (vault' : c'.vaults.lookup k = some v') :
    Handover history c i c' k v v' := by
  have reach : Reachable c := ⟨c₀, history, first.initial, run⟩
  have sound := reach.vaults_sound k v vault
  obtain ⟨m, _, issued, _⟩ := sound.backed.issued
  rw [sound.formed.shareMint] at issued
  have there := taken.mint_stays ⟨m, issued⟩
  have key := sound.formed.key
  have again : v'.admin ≠ v.admin → ∀ after d w, Run Step c' after d → d.vaults.lookup k = some w →
      w.admin = v.admin → InstalledIn after k v.admin := by
    intro replaced after d w onward found admin
    rw [key] at vault' found ⊢
    refine admin_installed onward there (fun u here => ?_) found admin
    cases Option.some.inj (vault'.symm.trans here)
    exact replaced
  refine ⟨fun replaced => ?_, ?_, fun replaced after d j d' onward step presented => ?_,
    fun replaced after d a expectedSequence d' onward step here authority => ?_⟩
  · rcases taken.admin_changes vault vault' with same | ⟨a, label, here, _⟩
    · exact absurd same replaced
    · exact ⟨a, label, here⟩
  · rintro a rfl rfl
    cases taken.admin_move with
    | kept other => cases other
    | nominated label => cases label
    | accepted label found key pdaKey nomination nominee valid =>
      cases label
      cases Option.some.inj (vault.symm.trans found)
      cases Option.some.inj ((Finmap.lookup_insert _).symm.trans vault')
      exact ⟨nominee, Installs.of_accepted first run forward found key pdaKey nomination nominee valid⟩
  · obtain ⟨w, found, admin⟩ := step.as_admin presented
    exact again replaced after d w onward found admin
  · obtain ⟨_, w, _, ran, _⟩ := ExpediteRequest.handler_eq_ok step.executed
    have found := ran.vault
    rw [here] at found
    rcases ran.authority with admin | operator
    · exact Or.inl (again replaced after d w onward found (admin.symm.trans authority))
    · exact Or.inr ⟨w, found, operator.symm.trans authority⟩

end Run

namespace Sample

def nominationPda : Pubkey := .nominatedAdmin mint 0

/-- The admin nominates the depositor, who accepts an hour later. -/
def nominating : List Instruction :=
  [.vault (.nominateAdmin ⟨vault, mint, admin⟩ nominationPda user), .clock 3600]

def nominated : Chain := (Chain.genesis (some admin)).runAll (opening ++ nominating)

def accepting : Instruction := .vault (.acceptAdminNomination ⟨vault, mint, nominationPda, user⟩)

end Sample

open Sample in
theorem nominated_handover :
    Handover ((Chain.genesis (some admin)).events (opening ++ nominating)) nominated accepting
      (nominated.next accepting) vault vaultOpened { vaultOpened with admin := user } :=
  admin_handover ⟨_, rfl⟩ (Chain.runAll_run _ _) (by decide +kernel) (.of_accepts (by decide +kernel))
    (by decide +kernel) (by decide +kernel)

end Upshift
