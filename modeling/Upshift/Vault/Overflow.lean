import Mathlib.Data.UInt
import Upshift.Vault.Price

namespace Upshift
open Guard KeyedStore History

/-- A deposit, or a report, that the recorded total has room for. -/
def BookAction.fits (B : Book) : BookAction → Prop
  | .deposit amount => B.total + amount ≤ u64Max
  | .report newAum => B.localAum + newAum ≤ u64Max
  | _ => True

/-- Every deposit into the vault at `k`, and every report to it, leaves `local_aum + deployed_aum` in range. -/
def Instruction.fits (i : Instruction) (c : Chain) (k : Pubkey) : Prop :=
  ∀ v ∈ c.vaults.lookup k, (i.action c k).fits (c.book v)

instance (B : Book) (action : BookAction) : Decidable (action.fits B) :=
  match action with
  | .deposit amount => Nat.decLe (B.total + amount) u64Max
  | .report newAum => Nat.decLe (B.localAum + newAum) u64Max
  | .drift | .redeem _ _ | .withdraw _ | .restore _ => .isTrue trivial

instance (i : Instruction) (c : Chain) (k : Pubkey) : Decidable (i.fits c k) :=
  inferInstanceAs (Decidable (∀ v ∈ c.vaults.lookup k, (i.action c k).fits (c.book v)))

def Chain.TotalDefined (c : Chain) (k : Pubkey) : Prop :=
  ∀ v, c.vaults.lookup k = some v → v.totalAssets = .ok (v.localAum + v.deployedAum)

theorem VaultState.totalAssets_defined {v : VaultState} :
    v.totalAssets = .ok (v.localAum + v.deployedAum) ↔ v.localAum + v.deployedAum ≤ u64Max := by
  rw [VaultState.totalAssets_eq_ok]
  exact and_iff_left rfl

/-- Only deposits and reports can take the total out of range: what is moved between the reserve and the
operator was counted before, or is held by the reserve after. -/
theorem Book.Step.total_fits {B B' : Book} {action : BookAction} (step : B.Step action B') (fits : B.total ≤ u64Max)
    (solvent : B.Solvent) (held : B'.reserve ≤ u64Max) : B'.total ≤ u64Max ↔ action.fits B := by
  unfold Book.Solvent at solvent
  cases step with
  | drift => exact iff_of_true fits trivial
  | deposit =>
    simp only [BookAction.fits, Book.total, Nat.add_right_comm]
  | redeem =>
    refine iff_of_true (le_trans ?_ fits) trivial
    exact Nat.add_le_add_right (Nat.sub_le _ _) _
  | withdraw _ bounded =>
    refine iff_of_true ?_ trivial
    simp only [Book.total] at fits ⊢
    omega
  | restore =>
    refine iff_of_true ?_ trivial
    simp only [Book.total] at fits held ⊢
    omega
  | report => rfl

section Run
variable {c c₀ c' : Chain} {i : Instruction} {k : Pubkey} {history : List (Chain × Instruction)}

/-- A step from a defined total leads to a defined total exactly when its amount fits. -/
theorem Step.total_defined (reach : Reachable c) (taken : Step c i c') (defined : c.TotalDefined k) :
    c'.TotalDefined k ↔ i.fits c k := by
  cases vault : c.vaults.lookup k with
  | none =>
    refine iff_of_true (fun v' vault' => ?_) fun v found => ?_
    · obtain ⟨_, _, _, _, _, _, _, _, _, _, rfl, _, rfl⟩ := taken.vault_new vault vault'
      cases Option.some.inj ((Finmap.lookup_insert _).symm.trans vault')
      rfl
    · cases vault.symm.trans found
  | some v =>
    rcases taken.vault_stays vault with ⟨v', vault'⟩ | ⟨a, _, _, _, rfl, rfl, _, rfl⟩
    · have sound := reach.vaults_sound k v vault
      have step := taken.book reach.bank_sound sound.formed sound.backed vault vault'
      have within : v.localAum + v.deployedAum ≤ u64Max := VaultState.totalAssets_defined.mp (defined v vault)
      have iff := step.total_fits within sound.solvent (taken.bank_sound reach.bank_sound |>.balance_le _)
      constructor
      · intro defined' w found
        cases Option.some.inj (vault.symm.trans found)
        exact iff.mp (VaultState.totalAssets_defined.mp (defined' v' vault'))
      · intro fits w found
        cases Option.some.inj (vault'.symm.trans found)
        exact VaultState.totalAssets_defined.mpr (iff.mpr (fits v vault))
    · refine iff_of_true (fun v' vault' => ?_) fun _ _ => trivial
      exact absurd rfl (lookup_erase_cases vault').1

/-- The total of a vault is defined in every state of a run exactly when every deposit and every
report of the run fits. -/
theorem total_assets_defined_iff (first : c₀.Genesis) (run : Run Step c₀ history c) (k : Pubkey) :
    ((∀ event ∈ history, event.1.TotalDefined k) ∧ c.TotalDefined k) ↔
      ∀ event ∈ history, event.2.fits event.1 k := by
  induction run with
  | start =>
    obtain ⟨_, rfl⟩ := first
    refine iff_of_true ⟨?_, ?_⟩ ?_
    · intro event member
      cases member
    · intro v vault
      cases vault
    · intro event member
      cases member
  | @next history t i u previous taken ih =>
    have reach : Reachable t := ⟨c₀, history, first.initial, previous⟩
    simp only [List.forall_mem_cons]
    constructor
    · rintro ⟨⟨defined, earlier⟩, defined'⟩
      exact ⟨(taken.total_defined reach defined).mp defined', ih.mp ⟨earlier, defined⟩⟩
    · rintro ⟨fits, earlier⟩
      obtain ⟨before, defined⟩ := ih.mpr earlier
      exact ⟨⟨defined, before⟩, (taken.total_defined reach defined).mpr fits⟩

end Run

namespace Sample

def deploying : OperatorTransfer := ⟨vault, reserve, wallet operator, mint, operator, none⟩

/-- Half of all tokens is deposited and deployed, and then reported to have doubled. -/
def swelling : List Instruction :=
  [.token (.initializeMint mint .token admin 6 none []),
    .token (.createAssociatedAccount user mint),
    .token (.createAssociatedAccount operator mint),
    .token (.mintTo mint (wallet user) admin (2 ^ 63)),
    .vault (.initializeConfig admin admin),
    .vault (.initializeVault ⟨admin, mint, vault, shareMint, reserve⟩ admin operator user 0 1000),
    .token (.createAssociatedAccount user shareMint),
    .vault (.deposit deposit (2 ^ 63)),
    .vault (.operatorWithdraw deploying (2 ^ 63 - 1)),
    .vault (.setAumLimits ⟨vault, mint, admin⟩ 10000 10000),
    .vault (.operatorUpdateAum ⟨vault, mint, operator⟩ (2 ^ 64 - 2)),
    .vault (.operatorUpdateAum ⟨vault, mint, operator⟩ (2 ^ 64 - 1))]

def swollen : Chain := (Chain.genesis (some admin)).runAll swelling

def vaultSwollen : VaultState :=
  { VaultState.init operator admin shareMint mint user 0 0 1000 with
    localAum := 1
    deployedAum := 2 ^ 64 - 1
    aumIncreaseLimit := 10000
    aumDecreaseLimit := 10000
    deployedPrincipal := 2 ^ 63 - 1 }

def leaving : Redeem := ⟨vault, reserve, wallet user, shares user, wallet user, shareMint, mint, user⟩

end Sample

open Sample in
/-- Two reports within the limits take the total out of range, and no share can be redeemed. -/
theorem swollen_total_undefined :
    Reachable swollen ∧ swollen.vaults.lookup vault = some vaultSwollen ∧
      vaultSwollen.totalAssets = .error (.vault .mathError) ∧
      swollen.refusal (.vault (.redeem leaving 1)) = some (.vault .mathError) ∧ ¬swollen.TotalDefined vault := by
  have at' : swollen.vaults.lookup vault = some vaultSwollen := by decide +kernel
  have undefined : vaultSwollen.totalAssets = .error (.vault .mathError) := by decide +kernel
  refine ⟨Chain.runAll_reachable _ _, at', undefined, by decide +kernel, fun defined => ?_⟩
  cases undefined.symm.trans (defined _ at')

open Sample in
theorem opened_total_defined :
    (∀ event ∈ (Chain.genesis (some admin)).events opening, event.1.TotalDefined vault) ∧
      opened.TotalDefined vault := by
  refine (total_assets_defined_iff ⟨some admin, rfl⟩ (Chain.runAll_run _ opening) vault).mpr ?_
  decide +kernel

end Upshift
