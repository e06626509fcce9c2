import Upshift.Isolation.Holders
import Upshift.Vault.Governance
import Upshift.Vault.Outflow
import Upshift.Vault.Reports
import Upshift.Vault.Trades
import Upshift.Vault.WriteOff

namespace Upshift
open Guard KeyedStore History

/-- Whether an instruction mints or redeems shares of the vault at `k`. -/
def Instruction.trades (i : Instruction) (k : Pubkey) : Bool := i.enters k || i.redeemsFrom k

/-- Whether an instruction lifts the pause of the vault at `k`. -/
def Instruction.resumes (i : Instruction) (k : Pubkey) : Bool :=
  match i with
  | .vault (.unpause a) => a.vaultState = k
  | _ => false

section Pause
variable {g g' : Governance} {c c' : Chain} {i : Instruction} {k key : Pubkey} {s s' : Settings} {v v' : VaultState}
  {r : WithdrawalRequest} {history : List (Chain × Instruction)}

theorem Governance.amend_paused {k₀ : Pubkey} {change : Settings → Settings} (vault : g.vaults k = some s)
    (vault' : (g.amend k₀ change).vaults k = some s') (keeps : k₀ = k → (change s).paused = s.paused) :
    s'.paused = s.paused := by
  simp only [Governance.amend, Function.update_apply] at vault'
  split at vault'
  · rename_i here
    rw [← here, vault] at vault'
    cases vault'
    exact keeps here.symm
  · cases Option.some.inj (vault.symm.trans vault')
    rfl

/-- A pause is lifted only as such. -/
theorem Governance.Step.stays_paused (taken : g.Step i g') (vault : g.vaults k = some s) (paused : s.paused = true)
    (held : i.resumes k = false) (vault' : g'.vaults k = some s') : s'.paused = true := by
  obtain ⟨permitted, rfl⟩ := taken
  have same : g.vaults k = some s' → s'.paused = true := fun still => by
    cases Option.some.inj (vault.symm.trans still)
    exact paused
  cases i with
  | vault j =>
    cases j with
    | setWithdrawalFee | setOperator | setFeeRecipient | setAumLimits | attachWithdrawalQueue | detachWithdrawalQueue
    | acceptAdminNomination => exact (Governance.amend_paused vault vault' fun _ => rfl).trans paused
    | pause => exact (Governance.amend_paused vault vault' fun _ => paused.symm).trans paused
    | unpause =>
      exact (Governance.amend_paused vault vault' fun here => absurd here (of_decide_eq_false held)).trans paused
    | closeVault a =>
      simp only [Governance.apply, Function.update_apply] at vault'
      split at vault'
      · cases vault'
      · exact same vault'
    | initializeVault a =>
      have other : k ≠ a.vaultState := fun here => by cases (here ▸ permitted.2.1).symm.trans vault
      exact same ((Function.update_of_ne other _ _).symm.trans vault')
    | _ => exact same vault'
  | queue j =>
    cases j with
    | releaseVault => exact (Governance.amend_paused vault vault' fun _ => rfl).trans paused
    | _ => exact same vault'
  | token | clock | setUpgradeAuthority => exact same vault'

/-- Nothing is traded with a vault that is paused or gone. -/
theorem Step.trades_not (taken : Step c i c') (paused : ∀ w, c.vaults.lookup k = some w → w.paused = true) :
    i.trades k = false := by
  have permitted := taken.governed.1
  have refused : ∀ {k₀ P}, c.governance.Has k₀ P → (∀ s, P s → s.paused = false) → k₀ ≠ k := by
    rintro k₀ P has running rfl
    obtain ⟨w, found, allowed⟩ := Chain.governance_of_has has
    cases (paused w found).symm.trans (running _ allowed)
  refine Bool.or_eq_false_iff.mpr ⟨Bool.eq_false_of_not_eq_true fun enters => ?_,
    Bool.eq_false_of_not_eq_true fun redeems => ?_⟩
  · obtain ⟨a, minSharesOut, label, here⟩ := Instruction.enters_eq enters
    obtain ⟨_, rfl, _⟩ | ⟨_, _, rfl, _⟩ := Instruction.deposits_eq_some label
    · exact refused permitted (fun _ => id) here
    · exact refused permitted (fun _ => id) here
  · unfold Instruction.redeemsFrom at redeems
    split at redeems
    · exact refused permitted (fun _ => And.left) (of_decide_eq_true redeems)
    · exact refused permitted (fun _ => And.left) (of_decide_eq_true redeems)
    · exact refused permitted (fun _ => And.left) (of_decide_eq_true redeems)
    · cases redeems

theorem Instruction.action_deposit {amount : Nat} (deposits : i.action c k = .deposit amount) : i.enters k := by
  unfold Instruction.action at deposits
  split at deposits
  all_goals try split at deposits
  all_goals try cases deposits
  all_goals exact decide_eq_true ‹_›

/-- What is neither a trade nor an operator's transfer burns shares at most. -/
theorem Step.untraded (reach : Reachable c) (taken : Step c i c') (vault : c.vaults.lookup k = some v)
    (vault' : c'.vaults.lookup k = some v') (trades : i.trades k = false) :
    c'.bank.supply v'.shareMint ≤ c.bank.supply v.shareMint ∧
      (i.deploys k = false → i.restores k = false → v'.localAum = v.localAum) := by
  obtain ⟨enters, redeems⟩ := Bool.or_eq_false_iff.mp trades
  have sound := reach.vaults_sound k v vault
  have step := taken.book reach.bank_sound sound.formed sound.backed vault vault'
  have supply : (c'.book v').supply ≤ (c.book v).supply ∧
      (i.deploys k = false → i.restores k = false → (c'.book v').localAum = (c.book v).localAum) := by
    generalize action : i.action c k = kind at step
    generalize c'.book v' = B' at step ⊢
    cases step with
    | drift burned => exact ⟨burned, fun _ _ => rfl⟩
    | deposit => cases enters.symm.trans (Instruction.action_deposit action)
    | redeem => cases redeems.symm.trans (Instruction.action_redeem action)
    | withdraw =>
      obtain ⟨a, amount, rfl, here⟩ := Instruction.action_withdraw action
      exact ⟨le_rfl, fun deploys => absurd here (of_decide_eq_false deploys)⟩
    | restore =>
      obtain ⟨a, amount, rfl, here⟩ := Instruction.action_restore action
      exact ⟨le_rfl, fun _ restores => absurd here (of_decide_eq_false restores)⟩
    | report => exact ⟨le_rfl, fun _ _ => rfl⟩
  exact supply

theorem WithdrawalRequest.Stands.keeps {r' : WithdrawalRequest} (stands : r.Stands r') :
    r'.queue = r.queue ∧ r'.owner = r.owner := by
  have written : r' = { r with eligibleAt := r'.eligibleAt } := stands.same
  rw [written]
  exact ⟨rfl, rfl⟩

/-- The address of a vault fixes its share mint. -/
theorem VaultState.WellFormed.same_mint {w : VaultState} (formed : w.WellFormed k) (other : v.WellFormed k) :
    w.shareMint = v.shareMint := by
  obtain ⟨mint, version⟩ := Pubkey.vaultState.inj (formed.key.symm.trans other.key)
  rw [formed.shareMint, other.shareMint, mint, version]

/-- A request outlives a step that does not trade with its vault, unless its owner cancels it. -/
theorem Step.request_waits (taken : Step c i c') (live : c.requests.lookup key = some r)
    (here : r.queue = .withdrawalQueue k) (trades : i.trades k = false) :
    (∃ r', c'.requests.lookup key = some r' ∧ r.Stands r') ∨
      ∃ a expectedSequence, i = .queue (.cancelWithdrawal a expectedSequence) ∧ a.request = key ∧ r.owner = a.owner := by
  rcases taken.request_outcome live with stands | cancelled | served
  · exact Or.inl stands
  · exact Or.inr cancelled
  · obtain ⟨a, expectedSequence, rfl, rfl, _⟩ := served.finalizes
    obtain ⟨_, _, _, _, _, _, _, _, _, _, _, spec, _⟩ := FinalizeWithdrawal.handler_eq_ok.mp taken.executed
    cases Option.some.inj (live.symm.trans spec.valid.request)
    have same := spec.valid.queueKey.symm.trans (spec.valid.requestQueue.symm.trans here)
    exact absurd (Pubkey.withdrawalQueue.inj same) (of_decide_eq_false (Bool.or_eq_false_iff.mp trades).2)

/-- From a pause until it is lifted nobody trades with the vault: no share of it is minted or redeemed, `local_aum`
moves only with the operator's transfers, and requests wait or are cancelled by their owners. -/
theorem paused_vault_halts (reach : Reachable c) (vault : c.vaults.lookup k = some v) (paused : v.paused = true)
    (run : Run Step c history c') (held : ∀ event ∈ history, event.2.resumes k = false) :
    (∀ event ∈ history, event.2.trades k = false) ∧ c'.bank.supply v.shareMint ≤ c.bank.supply v.shareMint ∧
      (∀ v', c'.vaults.lookup k = some v' → v'.paused = true ∧
        ((∀ event ∈ history, event.2.deploys k = false ∧ event.2.restores k = false) → v'.localAum = v.localAum)) ∧
      ∀ key r, c.requests.lookup key = some r → r.queue = .withdrawalQueue k →
        (∃ r', c'.requests.lookup key = some r' ∧ r.Stands r') ∨ ∃ event ∈ history, ∃ a expectedSequence,
          event.2 = .queue (.cancelWithdrawal a expectedSequence) ∧ a.request = key ∧ r.owner = a.owner := by
  have sound := reach.vaults_sound k v vault
  induction run with
  | start =>
    refine ⟨fun event member => (by cases member), le_rfl, fun v' vault' => ?_, fun key r live _ => ?_⟩
    · cases Option.some.inj (vault.symm.trans vault')
      exact ⟨paused, fun _ => rfl⟩
    · exact Or.inl ⟨r, live, .refl r⟩
  | @next history t i u previous taken ih =>
    obtain ⟨now, past⟩ := List.forall_mem_cons.mp held
    obtain ⟨idle, supply, kept, waits⟩ := ih past
    have trades := taken.trades_not fun w found => (kept w found).1
    have before : Reachable t := reach.extend previous
    have after : Reachable u := before.next taken
    have seen : ∀ v', u.vaults.lookup k = some v' → ∃ w, t.vaults.lookup k = some w := by
      intro v' vault'
      rcases vault_held previous reach vault with there | ⟨_, _, rfl, retired⟩
      · exact there
      · cases (taken.retired retired).1.symm.trans vault'
    refine ⟨List.forall_mem_cons.mpr ⟨trades, idle⟩, ?_, fun v' vault' => ?_, fun key r live here => ?_⟩
    · rcases vault_held (.next previous taken) reach vault with ⟨v', vault'⟩ | ⟨_, _, key, retired⟩
      · obtain ⟨w, found⟩ := seen v' vault'
        have less := (taken.untraded before found vault' trades).1
        rw [(before.vaults_sound k w found).formed.same_mint sound.formed,
          (after.vaults_sound k v' vault').formed.same_mint sound.formed] at less
        exact less.trans supply
      · obtain ⟨rfl, rfl⟩ := Pubkey.vaultState.inj (key.symm.trans sound.formed.key)
        rw [(retired.terminal sound.formed).supply]
        exact Nat.zero_le _
    · obtain ⟨w, found⟩ := seen v' vault'
      obtain ⟨halted, still⟩ := kept w found
      refine ⟨?_, fun steady => ?_⟩
      · exact taken.governed.stays_paused (congrArg (Option.map VaultState.settings) found) halted now
          (congrArg (Option.map VaultState.settings) vault')
      · obtain ⟨⟨deploys, restores⟩, earlier⟩ := List.forall_mem_cons.mp steady
        exact ((taken.untraded before found vault' trades).2 deploys restores).trans (still earlier)
    · rcases waits key r live here with ⟨r', live', stands⟩ | ⟨event, member, cancelled⟩
      · obtain ⟨queue, owner⟩ := stands.keeps
        rcases taken.request_waits live' (queue.trans here) trades with ⟨r'', live'', later⟩ | ⟨a, stamp, label, ends⟩
        · exact Or.inl ⟨r'', live'', stands.trans later⟩
        · exact Or.inr ⟨(t, i), List.mem_cons_self, a, stamp, label, owner ▸ ends⟩
      · exact Or.inr ⟨event, List.mem_cons_of_mem _ member, cancelled⟩

end Pause

namespace Sample

/-- The queue with its request, paused. -/
def halted : Chain := queued.next (.vault (.pause ⟨vault, mint, admin⟩))

def vaultHalted : VaultState := { vaultOpened with paused := true, withdrawalQueueAuthority := queue }

/-- A deposit that is refused, and the owner of the request takes it back. -/
def retreating : List Instruction :=
  [.vault (.deposit deposit 50000),
    .queue (.cancelWithdrawal ⟨queue, user, request 7, escrowShares, shareMint, shares user⟩ 1)]

theorem halted_vault : halted.vaults.lookup vault = some vaultHalted := by decide +kernel

theorem halted_reachable : Reachable halted :=
  Reachable.next (Chain.runAll_reachable _ _) (Step.of_accepts (by decide +kernel))

end Sample

open Sample in
theorem halted_vault_halts :
    (∀ event ∈ halted.events retreating, event.2.trades vault = false) ∧
      (halted.runAll retreating).bank.supply shareMint ≤ halted.bank.supply shareMint ∧
      (∀ v', (halted.runAll retreating).vaults.lookup vault = some v' → v'.paused = true ∧
        ((∀ event ∈ halted.events retreating, event.2.deploys vault = false ∧ event.2.restores vault = false) →
          v'.localAum = vaultHalted.localAum)) ∧
      ∀ key r, halted.requests.lookup key = some r → r.queue = .withdrawalQueue vault →
        (∃ r', (halted.runAll retreating).requests.lookup key = some r' ∧ r.Stands r') ∨
          ∃ event ∈ halted.events retreating, ∃ a expectedSequence,
            event.2 = .queue (.cancelWithdrawal a expectedSequence) ∧ a.request = key ∧ r.owner = a.owner :=
  @paused_vault_halts halted (halted.runAll retreating) vault vaultHalted (halted.events retreating) halted_reachable
    halted_vault rfl (Chain.runAll_run _ _) (by decide +kernel)

end Upshift
