import Upshift.Queue.Gate
import Upshift.Vault.Overflow

namespace Upshift
open Guard KeyedStore History

/-- There is something behind the shares, or there are no shares. -/
def Book.Priced (B : Book) : Prop := 0 < B.total ∨ B.supply = 0

/-- Only a report of nothing, with nothing in the reserve, leaves shares without a price. -/
theorem Book.Step.priced {B B' : Book} {action : BookAction} (step : B.Step action B') (priced : B.Priced) :
    B'.Priced ∨ action = .report 0 ∧ B.localAum = 0 ∧ 0 < B.deployedAum := by
  unfold Book.Priced Book.total at *
  cases step with
  | drift burned => simp only; omega
  | @deposit amount shares _ quoted =>
    obtain ⟨_, value⟩ := VaultState.sharesForDeposit_value quoted
    by_cases nothing : amount = 0
    · subst nothing
      simp only [Nat.zero_mul, Nat.zero_div, Nat.max_self, ite_self] at value
      subst value
      exact Or.inl priced
    · simp only; omega
  | @redeem shares assets _ _ _ quoted within liquid =>
    by_cases part : shares < B.supply
    · have less := assetsForRedeem_lt quoted part
      simp only [Book.total] at less ⊢
      omega
    · simp only; omega
  | withdraw => simp only; omega
  | restore => simp only; omega
  | @report newAum =>
    by_cases nothing : newAum = 0 ∧ B.localAum = 0 ∧ 0 < B.deployedAum
    · obtain ⟨rfl, empty, written⟩ := nothing
      exact Or.inr ⟨rfl, empty, written⟩
    · simp only; omega

/-- A redemption that leaves shares leaves something behind them. -/
theorem Book.Step.redeem_leaves {B B' : Book} {shares : Nat} {feeReturned : Bool}
    (step : B.Step (.redeem shares feeReturned) B') (left : 0 < B'.supply) : 0 < B'.total := by
  cases step with
  | redeem _ quoted within liquid =>
    simp only at left
    have less := assetsForRedeem_lt quoted (by omega)
    simp only [Book.total] at less ⊢
    omega

/-- A report of nothing by the operator of a vault that holds nothing in its reserve and has the limit on
mark-downs lifted. -/
structure Chain.WritesOff (c : Chain) (i : Instruction) (k : Pubkey) (v : VaultState) : Prop where
  report : ∃ a, i = .vault (.operatorUpdateAum a 0) ∧ a.vaultState = k ∧ a.operator = v.operator
  vault : c.vaults.lookup k = some v
  empty : v.localAum = 0
  limit : v.aumDecreaseLimit = 10000

/-- The vault at `k`, if there is one, has a share price. -/
def Chain.Priced (c : Chain) (k : Pubkey) : Prop := ∀ v, c.vaults.lookup k = some v → (c.book v).Priced

section Run
variable {c c₀ c' : Chain} {i : Instruction} {k : Pubkey} {v' : VaultState} {history : List (Chain × Instruction)}

theorem Initialize.Ran.supply_eq {a : Initialize} {vaultVersion shareOffset : Nat} {deposit : Mint}
    {withMint withReserve : Bank} (ran : Initialize.Ran c a vaultVersion shareOffset deposit withMint withReserve) :
    withReserve.supply a.shareMint = 0 := by
  obtain ⟨_, rfl⟩ := Bank.initializeMint_eq_ok.mp ran.creates
  obtain ⟨_, _, rfl⟩ := Bank.initializeAccount_eq_ok.mp ran.reserves
  simp only [Bank.supply, Finmap.lookup_insert, Option.elim_some]

/-- A step that leaves the shares of a vault without a price is a write-off. -/
theorem Step.priced (reach : Reachable c) (taken : Step c i c') (priced : c.Priced k) (lost : ¬c'.Priced k) :
    ∃ v, c.WritesOff i k v := by
  by_contra kept
  refine lost fun v' vault' => ?_
  cases vault : c.vaults.lookup k with
  | none =>
    obtain ⟨a, _, _, _, _, _, _, _, _, _, rfl, ran, rfl⟩ := taken.vault_new vault vault'
    cases Option.some.inj ((Finmap.lookup_insert _).symm.trans vault')
    exact Or.inr ran.supply_eq
  | some v =>
    have sound := reach.vaults_sound k v vault
    have step := taken.book reach.bank_sound sound.formed sound.backed vault vault'
    rcases step.priced (priced v vault) with still | ⟨reports, empty, written⟩
    · exact still
    · obtain ⟨a, newAum, rfl, rfl, zero⟩ := Instruction.action_report reports
      obtain ⟨w, ran, _⟩ := OperatorUpdateAum.handler_eq_ok taken.executed
      cases Option.some.inj (vault.symm.trans ran.vault)
      have above := ran.above
      have within := ran.decrease
      have nothing : newAum = 0 := UInt64.toNat_inj.mp zero
      subst nothing
      simp only [UInt64.toNat_zero, Nat.zero_mul, Nat.le_zero, Nat.mul_eq_zero, bpsDenominator] at above within
      have limit : v.aumDecreaseLimit = 10000 := by
        rcases above with lifted | nothing
        · omega
        · exact absurd nothing written.ne'
      exact absurd ⟨v, ⟨a, rfl, rfl, ran.operator.symm⟩, vault, empty, limit⟩ kept

theorem Instruction.redeemsFrom_action (redeems : i.redeemsFrom k) (c : Chain) :
    ∃ shares feeReturned, i.action c k = .redeem shares feeReturned := by
  unfold Instruction.redeemsFrom at redeems
  split at redeems
  all_goals try cases redeems
  all_goals simp only [Instruction.action, of_decide_eq_true redeems, if_true]
  all_goals exact ⟨_, _, rfl⟩

theorem Step.redeem_leaves (reach : Reachable c) (taken : Step c i c') (redeems : i.redeemsFrom k)
    (vault' : c'.vaults.lookup k = some v') (left : 0 < (c'.book v').supply) : 0 < (c'.book v').total := by
  cases vault : c.vaults.lookup k with
  | none =>
    obtain ⟨_, _, _, _, _, _, _, _, _, rfl, _⟩ := taken.vault_new vault vault'
    cases redeems
  | some v =>
    have sound := reach.vaults_sound k v vault
    have step := taken.book reach.bank_sound sound.formed sound.backed vault vault'
    obtain ⟨shares, feeReturned, action⟩ := Instruction.redeemsFrom_action redeems c
    exact (action ▸ step).redeem_leaves left

/-- In every run from a priced state the price of a vault is lost only by writing everything off. Redemptions
alone never take it: those that leave shares leave assets, at every offset. -/
theorem price_lost_by_write_off (reach : Reachable c₀) (run : Run Step c₀ history c) (start : c₀.Priced k) :
    (∀ v, c.vaults.lookup k = some v → v.localAum + v.deployedAum = 0 → 0 < c.bank.supply v.shareMint →
      ∃ later t i earlier w, history = later ++ (t, i) :: earlier ∧ t.Priced k ∧ t.WritesOff i k w) ∧
    (∀ event ∈ history, event.2.redeemsFrom k → ∀ v, (event.1.next event.2).vaults.lookup k = some v →
      0 < (event.1.next event.2).bank.supply v.shareMint → 1 ≤ v.localAum + v.deployedAum) ∧
    ∀ supply total shares offset assets,
      VaultState.assetsForRedeemWithOffset supply total shares offset = .ok assets → shares < supply →
        1 ≤ total - assets := by
  refine ⟨fun v vault empty outstanding => ?_, fun event member redeems v vault' outstanding => ?_,
    fun supply total shares offset assets quoted part => ?_⟩
  · have lost : ¬c.Priced k := by
      intro priced
      have split : 0 < v.localAum + v.deployedAum ∨ c.bank.supply v.shareMint = 0 := priced v vault
      omega
    obtain ⟨later, t, i, earlier, after, rfl, before, taken, priced, lost'⟩ := run.turn (Chain.Priced · k) start lost
    obtain ⟨w, writesOff⟩ := taken.priced (reach.extend before) priced lost'
    exact ⟨later, t, i, earlier, w, rfl, priced, writesOff⟩
  · obtain ⟨earlier, after, _, before, taken⟩ := run.at_event member
    rw [taken.next_eq] at vault' outstanding
    exact taken.redeem_leaves (reach.extend before) redeems vault' outstanding
  · have less := assetsForRedeem_lt quoted part
    omega

end Run

namespace Sample

/-- Everything is deployed, the limits are lifted, and the operator reports that nothing is left. -/
def writingOff : List Instruction :=
  [.vault (.operatorWithdraw deploying 200000),
    .vault (.setAumLimits ⟨vault, mint, admin⟩ 10000 10000),
    .vault (.operatorUpdateAum ⟨vault, mint, operator⟩ 0)]

def writtenOff : Chain := opened.runAll writingOff

def vaultWrittenOff : VaultState :=
  { vaultOpened with localAum := 0, aumIncreaseLimit := 10000, aumDecreaseLimit := 10000, deployedPrincipal := 200000 }

end Sample

open Sample in
theorem written_off_price :
    ∃ later t i earlier w, opened.events writingOff = later ++ (t, i) :: earlier ∧ t.Priced vault ∧
      t.WritesOff i vault w := by
  have start : opened.Priced vault := by
    intro v vault
    cases Option.some.inj (opened_vault.symm.trans vault)
    exact Or.inl (by decide +kernel)
  have lost := price_lost_by_write_off (Chain.runAll_reachable _ _) (Chain.runAll_run opened writingOff) start
  have reached : writtenOff.vaults.lookup vault = some vaultWrittenOff := by decide +kernel
  exact lost.1 vaultWrittenOff reached rfl (by decide +kernel)

end Upshift
