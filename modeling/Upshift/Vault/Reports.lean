import Upshift.Lib.Rounding
import Upshift.Vault.Closing
import Upshift.Vault.Overflow

namespace Upshift
open Guard KeyedStore History

def Instruction.reports (i : Instruction) (k : Pubkey) : Bool :=
  match i with
  | .vault (.operatorUpdateAum a _) => a.vaultState = k
  | _ => false

def Instruction.deploys (i : Instruction) (k : Pubkey) : Bool :=
  match i with
  | .vault (.operatorWithdraw a _) => a.vaultState = k
  | _ => false

def Instruction.restores (i : Instruction) (k : Pubkey) : Bool :=
  match i with
  | .vault (.operatorDeposit a _) => a.vaultState = k
  | _ => false

/-- The operator's report to the vault at `k`. -/
def VaultState.report (v : VaultState) (k : Pubkey) (newAum : UInt64) : Instruction :=
  .vault (.operatorUpdateAum ⟨k, v.depositMint, v.operator⟩ newAum)

/-- The bounds of a report: the largest loss, rounded up, and the largest gain, rounded down. -/
def VaultState.leastReport (v : VaultState) : Nat := ⌈(v.deployedAum * (10000 - v.aumDecreaseLimit) : ℚ) / 10000⌉₊

def VaultState.greatestReport (v : VaultState) : Nat := ⌊(v.deployedAum * (10000 + v.aumIncreaseLimit) : ℚ) / 10000⌋₊

/-- The guard of one report, which itself always has a value. -/
structure Chain.AumGuarded (c : Chain) (k : Pubkey) (v : VaultState) : Prop where
  increase : v.aumIncreaseLimit ≤ 10000
  decrease : v.aumDecreaseLimit ≤ 10000
  accepted : v.operator.canSign = true → ∀ newAum, c.accepts (v.report k newAum) = true ↔
    v.leastReport ≤ newAum.toNat ∧ newAum.toNat ≤ v.greatestReport
  exact : v.operator.canSign = true → ∀ newAum, c.process (v.report k newAum) =
    if newAum.toNat < v.leastReport then .error (.vault .aumDecreaseTooBig)
    else if v.greatestReport < newAum.toNat then .error (.vault .aumIncreaseTooBig)
    else .ok { c with vaults := c.vaults.insert k { v with deployedAum := newAum.toNat } }

/-- What any number of reports can make of the deployed value. -/
structure AumCompounds (k : Pubkey) (history : List (Chain × Instruction)) (v v' : VaultState) : Prop where
  band : (∀ event ∈ history, event.2.deploys k = false ∧ event.2.restores k = false) → ∀ increase decrease,
    (∀ event ∈ history, event.2.reports k = true → ∀ w ∈ event.1.vaults.lookup k,
      w.aumIncreaseLimit = increase ∧ w.aumDecreaseLimit = decrease) →
    v.deployedAum * (10000 - decrease) ^ (history.countP fun event => event.2.reports k) ≤
        v'.deployedAum * 10000 ^ (history.countP fun event => event.2.reports k) ∧
      v'.deployedAum * 10000 ^ (history.countP fun event => event.2.reports k) ≤
        v.deployedAum * (10000 + increase) ^ (history.countP fun event => event.2.reports k)
  zero : (∀ event ∈ history, event.2.deploys k = false) → v.deployedAum = 0 → v'.deployedAum = 0
  drained : (∀ event ∈ history, event.2.restores k = false) → 0 < v.deployedAum → v'.deployedAum = 0 →
    ∃ event ∈ history, event.2.reports k = true ∧ ∃ w, event.1.vaults.lookup k = some w ∧ 0 < w.deployedAum ∧
      w.aumDecreaseLimit = 10000
  revived : v.deployedAum = 0 → 0 < v'.deployedAum →
    ∃ event ∈ history, event.2.deploys k = true ∧ ∃ w, event.1.vaults.lookup k = some w ∧ w.deployedAum = 0

section Guard
variable {v : VaultState} {newAum : Nat}

theorem VaultState.leastReport_le (decrease : v.aumDecreaseLimit ≤ 10000) :
    v.leastReport ≤ newAum ↔ (bpsDenominator - v.aumDecreaseLimit) * v.deployedAum ≤ newAum * bpsDenominator := by
  have cast : (v.deployedAum * (10000 - v.aumDecreaseLimit) : ℚ) =
      ((bpsDenominator - v.aumDecreaseLimit) * v.deployedAum : Nat) := by
    rw [Nat.cast_mul, mul_comm, Nat.cast_sub (show v.aumDecreaseLimit ≤ bpsDenominator from decrease)]
    rfl
  rw [VaultState.leastReport, cast, Nat.ceil_le, div_le_iff₀ (by norm_num)]
  exact_mod_cast Iff.rfl

theorem VaultState.le_greatestReport :
    newAum ≤ v.greatestReport ↔ newAum * bpsDenominator ≤ (bpsDenominator + v.aumIncreaseLimit) * v.deployedAum := by
  have cast : (v.deployedAum * (10000 + v.aumIncreaseLimit) : ℚ) =
      ((bpsDenominator + v.aumIncreaseLimit) * v.deployedAum : Nat) := by
    rw [Nat.cast_mul, mul_comm, Nat.cast_add]
    rfl
  rw [VaultState.greatestReport, cast, Nat.le_floor_iff (by positivity), le_div_iff₀ (by norm_num)]
  exact_mod_cast Iff.rfl

end Guard

section Report
variable {c c' : Chain} {i : Instruction} {k : Pubkey} {v v' : VaultState}

/-- For limits in range the handler decides by its two comparisons alone. -/
theorem OperatorUpdateAum.handler_exact (sound : c.VaultSound k v) (vault : c.vaults.lookup k = some v)
    (newAum : UInt64) : OperatorUpdateAum.handler c ⟨k, v.depositMint, v.operator⟩ newAum.toNat =
      if newAum.toNat < v.leastReport then .error (.vault .aumDecreaseTooBig)
      else if v.greatestReport < newAum.toNat then .error (.vault .aumIncreaseTooBig)
      else .ok { c with vaults := c.vaults.insert k { v with deployedAum := newAum.toNat } } := by
  obtain ⟨_, d, _, atDeposit, _⟩ := sound.backed.issued
  have decrease : v.aumDecreaseLimit ≤ bpsDenominator := sound.formed.decrease
  have increase : v.aumIncreaseLimit ≤ bpsDenominator := sound.formed.increase
  have held := sound.deployed
  have word : newAum.toNat ≤ u64Max := Nat.le_of_lt_succ newAum.toNat_lt
  have accounts : c.vaultAt k v.depositMint = .ok v :=
    Chain.vaultAt_eq_ok.mpr ⟨vault, ⟨d, atDeposit⟩, sound.formed.key⟩
  have lower : (bpsDenominator - v.aumDecreaseLimit) * v.deployedAum ≤ u128Max :=
    (Nat.mul_le_mul (Nat.sub_le _ _) held).trans (by decide)
  have upper : (bpsDenominator + v.aumIncreaseLimit) * v.deployedAum ≤ u128Max :=
    (Nat.mul_le_mul (Nat.add_le_add_left increase _) held).trans (by decide)
  have scaled : newAum.toNat * bpsDenominator ≤ u128Max := (Nat.mul_le_mul_right _ word).trans (by decide)
  have limit : bpsDenominator + v.aumIncreaseLimit ≤ u32Max := (Nat.add_le_add_left increase _).trans (by decide)
  simp only [OperatorUpdateAum.handler, accounts, ok_bind, require_pos, checkedSub_eq_some.mpr ⟨decrease, rfl⟩,
    checkedAdd_eq_some.mpr ⟨limit, rfl⟩, checkedMul_eq_some.mpr ⟨scaled, rfl⟩, checkedMul_eq_some.mpr ⟨lower, rfl⟩,
    checkedMul_eq_some.mpr ⟨upper, rfl⟩, okOr_some]
  by_cases above : v.leastReport ≤ newAum.toNat
  · rw [if_neg (Nat.not_lt.mpr above), require_pos ((VaultState.leastReport_le decrease).mp above), ok_bind]
    by_cases below : newAum.toNat ≤ v.greatestReport
    · rw [if_neg (Nat.not_lt.mpr below), require_pos (VaultState.le_greatestReport.mp below), ok_bind]
      rfl
    · rw [if_pos (Nat.not_le.mp below), require_neg (mt VaultState.le_greatestReport.mpr below), error_bind]
  · rw [if_pos (Nat.not_le.mp above), require_neg (mt (VaultState.leastReport_le decrease).mpr above), error_bind]

theorem Chain.VaultSound.report_exact (sound : c.VaultSound k v) (vault : c.vaults.lookup k = some v)
    (signs : v.operator.canSign = true) (newAum : UInt64) : c.process (v.report k newAum) =
      if newAum.toNat < v.leastReport then .error (.vault .aumDecreaseTooBig)
      else if v.greatestReport < newAum.toNat then .error (.vault .aumIncreaseTooBig)
      else .ok { c with vaults := c.vaults.insert k { v with deployedAum := newAum.toNat } } := by
  have signed : ((v.report k newAum).signers.all Pubkey.canSign) = true := by
    simp only [VaultState.report, Instruction.signers, VaultInstruction.signers, List.all_cons, List.all_nil, signs,
      Bool.and_self]
  rw [Chain.process, require_pos signed, ok_bind]
  exact OperatorUpdateAum.handler_exact sound vault newAum

theorem Reachable.aum_guarded (reach : Reachable c) (vault : c.vaults.lookup k = some v) : c.AumGuarded k v := by
  have sound := reach.vaults_sound k v vault
  refine ⟨sound.formed.increase, sound.formed.decrease, fun signs newAum => ?_, sound.report_exact vault⟩
  rw [Chain.accepts, sound.report_exact vault signs newAum]
  by_cases below : newAum.toNat < v.leastReport
  · simp only [if_pos below, Bool.false_eq_true, false_iff, not_and]
    omega
  · by_cases beyond : v.greatestReport < newAum.toNat
    · simp only [if_neg below, if_pos beyond, Bool.false_eq_true, false_iff, not_and]
      omega
    · simp only [if_neg below, if_neg beyond, true_iff]
      omega

end Report

/-- What a step does to the deployed value of a vault that stays. -/
inductive AumMove (i : Instruction) (k : Pubkey) (v v' : VaultState) : Prop
  | kept (same : v'.deployedAum = v.deployedAum)
  | deployed (label : i.deploys k = true) (grown : v.deployedAum ≤ v'.deployedAum)
  | restored (label : i.restores k = true) (fallen : v'.deployedAum ≤ v.deployedAum)
  | reported (label : i.reports k = true) (decrease : v.aumDecreaseLimit ≤ 10000)
      (above : (10000 - v.aumDecreaseLimit) * v.deployedAum ≤ v'.deployedAum * 10000)
      (below : v'.deployedAum * 10000 ≤ (10000 + v.aumIncreaseLimit) * v.deployedAum)

/-- A run seen from the deployed value of one vault. -/
inductive AumPath (k : Pubkey) (v : VaultState) : List (Chain × Instruction) → VaultState → Prop
  | start : AumPath k v [] v
  | next {history t i w v'} : AumPath k v history w → t.vaults.lookup k = some w → AumMove i k w v' →
      AumPath k v ((t, i) :: history) v'

section Moves
variable {c c' : Chain} {i : Instruction} {k : Pubkey} {v v' : VaultState} {history : List (Chain × Instruction)}

theorem Instruction.action_restore {amount : Nat} (restores : i.action c k = .restore amount) :
    ∃ a n, i = .vault (.operatorDeposit a n) ∧ a.vaultState = k := by
  unfold Instruction.action at restores
  split at restores
  all_goals try split at restores
  all_goals try cases restores
  rename_i a n here
  exact ⟨a, n, rfl, here⟩

theorem Book.Step.deployed_cases {B B' : Book} {action : BookAction} (step : B.Step action B') :
    B'.deployedAum = B.deployedAum ∨ (∃ amount, action = .withdraw amount ∧ B.deployedAum ≤ B'.deployedAum) ∨
      (∃ amount, action = .restore amount ∧ B'.deployedAum ≤ B.deployedAum) ∨
      ∃ newAum, action = .report newAum ∧ B'.deployedAum = newAum := by
  cases step with
  | drift | deposit | redeem => exact Or.inl rfl
  | withdraw => exact Or.inr (Or.inl ⟨_, rfl, Nat.le_add_right _ _⟩)
  | restore => exact Or.inr (Or.inr (Or.inl ⟨_, rfl, Nat.sub_le _ _⟩))
  | report => exact Or.inr (Or.inr (Or.inr ⟨_, rfl, rfl⟩))

theorem Step.aum_move (reach : Reachable c) (taken : Step c i c') (vault : c.vaults.lookup k = some v)
    (vault' : c'.vaults.lookup k = some v') : AumMove i k v v' := by
  have sound := reach.vaults_sound k v vault
  have step := taken.book reach.bank_sound sound.formed sound.backed vault vault'
  obtain same | ⟨_, action, grown⟩ | ⟨_, action, fallen⟩ | ⟨_, action, marked⟩ := step.deployed_cases
  · exact .kept same
  · obtain ⟨a, amount, rfl, here⟩ := Instruction.action_withdraw action
    exact .deployed (decide_eq_true here) grown
  · obtain ⟨a, amount, rfl, here⟩ := Instruction.action_restore action
    exact .restored (decide_eq_true here) fallen
  · obtain ⟨a, newAum, rfl, rfl, rfl⟩ := Instruction.action_report action
    obtain ⟨w, ran, _⟩ := OperatorUpdateAum.handler_eq_ok taken.executed
    cases Option.some.inj (vault.symm.trans ran.vault)
    have marked : v'.deployedAum = newAum.toNat := marked
    exact .reported (decide_eq_true rfl) ran.decrease (marked ▸ ran.above) (marked ▸ ran.below)

/-- A vault stays until it is closed, and then for good. -/
theorem vault_held (run : Run Step c history c') (reach : Reachable c) (vault : c.vaults.lookup k = some v) :
    (∃ v', c'.vaults.lookup k = some v') ∨
      ∃ depositMint vaultVersion, k = .vaultState depositMint vaultVersion ∧ c'.Retired depositMint vaultVersion := by
  induction run with
  | start => exact Or.inl ⟨v, vault⟩
  | @next history t i u previous taken ih =>
    rcases ih with ⟨w, atMiddle⟩ | ⟨depositMint, vaultVersion, key, retired⟩
    · rcases taken.vault_stays atMiddle with still | ⟨a, m, closed, revoked, _, here, ran, rfl⟩
      · exact Or.inl still
      · subst here
        have reach : Reachable t := reach.extend previous
        have formed := (reach.vaults_sound _ w atMiddle).formed
        exact Or.inr ⟨_, _, formed.key, ran.retires_vault formed⟩
    · exact Or.inr ⟨depositMint, vaultVersion, key, taken.retired retired⟩

theorem aum_path (run : Run Step c history c') (reach : Reachable c) (vault : c.vaults.lookup k = some v)
    (vault' : c'.vaults.lookup k = some v') : AumPath k v history v' := by
  induction run generalizing v' with
  | start =>
    cases Option.some.inj (vault.symm.trans vault')
    exact .start
  | @next history t i u previous taken ih =>
    rcases vault_held previous reach vault with ⟨w, atMiddle⟩ | ⟨depositMint, vaultVersion, rfl, retired⟩
    · exact .next (ih atMiddle) atMiddle (taken.aum_move (reach.extend previous) atMiddle vault')
    · cases (taken.retired retired).1.symm.trans vault'

end Moves

section Path
variable {k : Pubkey} {v v' : VaultState} {history : List (Chain × Instruction)}

/-- Without transfers each report adds one factor to the band, and nothing else widens it. -/
theorem AumPath.band (path : AumPath k v history v')
    (untouched : ∀ event ∈ history, event.2.deploys k = false ∧ event.2.restores k = false) {increase decrease : Nat}
    (fixed : ∀ event ∈ history, event.2.reports k = true → ∀ w ∈ event.1.vaults.lookup k,
      w.aumIncreaseLimit = increase ∧ w.aumDecreaseLimit = decrease) :
    v.deployedAum * (10000 - decrease) ^ (history.countP fun event => event.2.reports k) ≤
        v'.deployedAum * 10000 ^ (history.countP fun event => event.2.reports k) ∧
      v'.deployedAum * 10000 ^ (history.countP fun event => event.2.reports k) ≤
        v.deployedAum * (10000 + increase) ^ (history.countP fun event => event.2.reports k) := by
  induction path with
  | start => simp only [List.countP_nil, pow_zero, mul_one, le_refl, and_self]
  | @next history t i w v' earlier atMiddle move ih =>
    obtain ⟨lower, upper⟩ := ih (fun event member => untouched event (List.mem_cons_of_mem _ member))
      fun event member => fixed event (List.mem_cons_of_mem _ member)
    obtain ⟨undeployed, unrestored⟩ := untouched (t, i) (List.mem_cons_self ..)
    have limits := fixed (t, i) (List.mem_cons_self ..)
    cases reports : i.reports k with
    | false =>
      rw [List.countP_cons_of_neg (by simp only [reports, Bool.false_eq_true, not_false_eq_true])]
      cases move with
      | kept same => exact same ▸ ⟨lower, upper⟩
      | deployed label => cases undeployed.symm.trans label
      | restored label => cases unrestored.symm.trans label
      | reported label => cases reports.symm.trans label
    | true =>
      obtain ⟨rfl, rfl⟩ := limits reports w atMiddle
      rw [List.countP_cons_of_pos (by simp only [reports])]
      cases move with
      | kept same =>
        rw [same]
        refine ⟨Rounding.compound_le lower ?_, Rounding.le_compound upper ?_⟩
        · rw [Nat.mul_comm]
          exact Nat.mul_le_mul_left _ (Nat.sub_le _ _)
        · rw [Nat.mul_comm]
          exact Nat.mul_le_mul_right _ (Nat.le_add_right _ _)
      | deployed label => cases undeployed.symm.trans label
      | restored label => cases unrestored.symm.trans label
      | reported _ _ above below => exact ⟨Rounding.compound_le lower above, Rounding.le_compound upper below⟩

theorem AumPath.zero (path : AumPath k v history v') (untouched : ∀ event ∈ history, event.2.deploys k = false)
    (empty : v.deployedAum = 0) : v'.deployedAum = 0 := by
  induction path with
  | start => exact empty
  | @next history t i w v' earlier atMiddle move ih =>
    have before := ih fun event member => untouched event (List.mem_cons_of_mem _ member)
    cases move with
    | kept same => exact same.trans before
    | deployed label => cases (untouched (t, i) (List.mem_cons_self ..)).symm.trans label
    | restored _ fallen => omega
    | reported _ _ _ below =>
      rw [before, Nat.mul_zero] at below
      omega

theorem AumPath.drained (path : AumPath k v history v') (untouched : ∀ event ∈ history, event.2.restores k = false)
    (some : 0 < v.deployedAum) (empty : v'.deployedAum = 0) : ∃ event ∈ history, event.2.reports k = true ∧
      ∃ w, event.1.vaults.lookup k = .some w ∧ 0 < w.deployedAum ∧ w.aumDecreaseLimit = 10000 := by
  induction path with
  | start => omega
  | @next history t i w v' earlier atMiddle move ih =>
    by_cases before : w.deployedAum = 0
    · obtain ⟨event, member, found⟩ := ih (fun event member => untouched event (List.mem_cons_of_mem _ member)) before
      exact ⟨event, List.mem_cons_of_mem _ member, found⟩
    · refine ⟨(t, i), List.mem_cons_self .., ?_⟩
      cases move with
      | kept same => omega
      | deployed _ grown => omega
      | restored label => cases (untouched (t, i) (List.mem_cons_self ..)).symm.trans label
      | reported label decrease above =>
        refine ⟨label, w, atMiddle, Nat.pos_of_ne_zero before, ?_⟩
        rw [empty, Nat.zero_mul, Nat.le_zero, Nat.mul_eq_zero] at above
        omega

theorem AumPath.revived (path : AumPath k v history v') (empty : v.deployedAum = 0) (some : 0 < v'.deployedAum) :
    ∃ event ∈ history, event.2.deploys k = true ∧
      ∃ w, event.1.vaults.lookup k = .some w ∧ w.deployedAum = 0 := by
  induction path with
  | start => omega
  | @next history t i w v' earlier atMiddle move ih =>
    by_cases before : w.deployedAum = 0
    · refine ⟨(t, i), List.mem_cons_self .., ?_⟩
      cases move with
      | kept same => omega
      | deployed label => exact ⟨label, w, atMiddle, before⟩
      | restored _ fallen => omega
      | reported _ _ _ below =>
        rw [before, Nat.mul_zero] at below
        omega
    · obtain ⟨event, member, found⟩ := ih (Nat.pos_of_ne_zero before)
      exact ⟨event, List.mem_cons_of_mem _ member, found⟩

end Path

/-- The guard is exact in every reachable state, and reports under fixed limits stay within the compounded band. Only
a report under a limit of the whole can take the value to zero, and only a withdrawal can bring it back. -/
theorem Reachable.aum_guard_exact {c : Chain} {k : Pubkey} {v : VaultState} (reach : Reachable c)
    (vault : c.vaults.lookup k = some v) : c.AumGuarded k v ∧ ∀ history c' v', Run Step c history c' →
      c'.vaults.lookup k = some v' → AumCompounds k history v v' := by
  refine ⟨reach.aum_guarded vault, fun history c' v' run vault' => ?_⟩
  have path := aum_path run reach vault vault'
  exact ⟨fun untouched _ _ fixed => path.band untouched fixed, path.zero, path.drained, path.revived⟩

namespace Sample

/-- Half of the deposit is deployed, and then reported twice. -/
def marked : Chain := (Chain.genesis (some admin)).runAll (opening ++ [.vault (.operatorWithdraw deploying 100000)])

def vaultMarked : VaultState :=
  { vaultOpened with localAum := 100000, deployedAum := 100000, deployedPrincipal := 100000 }

def marking : List Instruction := [vaultMarked.report vault 100200, vaultMarked.report vault 99999,
  vaultMarked.report vault 100000]

end Sample

open Sample in
theorem marked_aum_guarded : marked.AumGuarded vault vaultMarked ∧
    AumCompounds vault (marked.events marking) vaultMarked vaultMarked := by
  have guarded := Reachable.aum_guard_exact (Chain.runAll_reachable _ _ : Reachable marked)
    (show marked.vaults.lookup vault = some vaultMarked by decide +kernel)
  exact ⟨guarded.1, guarded.2 _ _ _ (Chain.runAll_run marked marking) (by decide +kernel)⟩

/-- The second report is below the floor by a part of a unit, and refused. -/
example : (Sample.marked.events Sample.marking).length = 2 := by decide +kernel

end Upshift
