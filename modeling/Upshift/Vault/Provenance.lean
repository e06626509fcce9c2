import Upshift.Vault.Governance

namespace Upshift
open Guard KeyedStore History

/-- The key an instruction makes the one that may create vaults. -/
def Instruction.appoints : Instruction → Option Pubkey
  | .vault (.initializeConfig _ authority) => some authority
  | .vault (.setConfigAuthority _ newAuthority) => some newAuthority
  | .vault (.overrideConfigAuthority _ newAuthority) => some newAuthority
  | _ => none

def Instruction.createsConfig : Instruction → Bool
  | .vault (.initializeConfig ..) => true
  | _ => false

/-- The vault an instruction creates. -/
def Instruction.creates : Instruction → Option Pubkey
  | .vault (.initializeVault a ..) => some a.vaultState
  | _ => none

section Config
variable {g g' : Governance} {i : Instruction} {key : Pubkey}

theorem Governance.apply_config (g : Governance) (i : Instruction) : (g.apply i).config = i.appoints.or g.config := by
  cases i with
  | vault j =>
    cases j with
    | initializeConfig | setConfigAuthority | overrideConfigAuthority => rfl
    | _ => exact Option.none_or.symm
  | queue j => cases j <;> exact Option.none_or.symm
  | token | clock | setUpgradeAuthority => exact Option.none_or.symm

theorem Governance.Permits.set (permitted : g.Permits i) (appoints : i.appoints = some key) : key ≠ .default := by
  unfold Instruction.appoints at appoints
  split at appoints
  · cases appoints
    exact permitted.2.2
  · cases appoints
    exact permitted.2
  · cases appoints
    exact permitted.2.2
  · cases appoints

theorem Governance.Step.creates_config (taken : g.Step i g') (creates : i.createsConfig = true) :
    g.config = none ∧ g'.config.isSome := by
  obtain ⟨permitted, rfl⟩ := taken
  unfold Instruction.createsConfig at creates
  split at creates
  · exact ⟨permitted.2.1, rfl⟩
  · cases creates

theorem Governance.Step.first_config (taken : g.Step i g') (absent : g.config = none) (there : g'.config ≠ none) :
    i.createsConfig = true := by
  obtain ⟨permitted, rfl⟩ := taken
  rw [Governance.apply_config, absent, Option.or_none] at there
  unfold Instruction.appoints at there
  split at there
  · rfl
  · cases absent.symm.trans permitted.1
  · have present := permitted.2.1
    rw [absent] at present
    cases present
  · exact absurd rfl there

end Config

section Runs
variable {c₀ c : Chain} {history : List (Chain × Instruction)} {k : Pubkey} {v : VaultState} {p : ProgramConfig}

theorem Run.config_kept (run : Run Step c₀ history c) (silent : ∀ event ∈ history, event.2.appoints = none) :
    c.governance.config = c₀.governance.config := by
  refine run.constant (f := fun t => t.governance.config) (A := fun i => i.appoints = none) silent ?_
  intro t i u taken other
  rw [taken.governed.2, Governance.apply_config, other, Option.none_or]

theorem Run.config_once (run : Run Step c₀ history c) : (history.countP fun event => event.2.createsConfig) ≤ 1 := by
  refine (run.at_most_once (P := fun t => t.governance.config.isSome) (B := Instruction.createsConfig) ?_ ?_).1
  · intro t i u taken there
    rw [taken.governed.2, Governance.apply_config, Option.isSome_or, there, Bool.or_true]
  · intro t i u taken creates
    obtain ⟨absent, there⟩ := taken.governed.creates_config creates
    exact ⟨absent ▸ Bool.false_ne_true, there⟩

/-- The key that may create vaults is the last one appointed: at its creation by the upgrade authority, later by the
key in force or by the upgrade authority. -/
theorem config_provenance (first : c₀.Genesis) (run : Run Step c₀ history c) (config : c.config = some p) :
    p.authority ≠ .default ∧ (history.countP fun event => event.2.createsConfig) = 1 ∧
      ∃ later t i earlier, history = later ++ (t, i) :: earlier ∧ i.appoints = some p.authority ∧
        t.governance.Permits i ∧ ∀ event ∈ later, event.2.appoints = none := by
  obtain ⟨_, rfl⟩ := first
  have seen : c.governance.config = some p.authority := congrArg (Option.map ProgramConfig.authority) config
  have created : 0 < history.countP fun event => event.2.createsConfig := by
    obtain ⟨_, u, i, _, _, rfl, _, taken, absent, there⟩ := run.turn (fun t => t.governance.config = none) rfl
      (seen ▸ Option.some_ne_none _)
    refine List.countP_pos_iff.mpr ⟨(u, i), List.mem_append_right _ List.mem_cons_self, ?_⟩
    exact taken.governed.first_config absent there
  rcases latest (fun i => i.appoints ≠ none) history with never | ⟨later, t, i, earlier, rfl, appoints, newer⟩
  · cases seen.symm.trans (Run.config_kept run fun event member => not_not.mp (never event member))
  · have silent := fun event member => not_not.mp (newer event member)
    obtain ⟨next, _, made, rest⟩ := run.split
    obtain ⟨key, label⟩ := Option.ne_none_iff_exists'.mp appoints
    have kept := Run.config_kept rest silent
    rw [seen, made.governed.2, Governance.apply_config, label, Option.some_or] at kept
    cases Option.some.inj kept
    exact ⟨made.governed.1.set label, Nat.le_antisymm (Run.config_once run) created, later, t, i, earlier, rfl, label,
      made.governed.1, silent⟩

/-- What no instruction changes about a vault. -/
def VaultState.identity (v : VaultState) : Pubkey × Pubkey × Nat × Nat :=
  (v.shareMint, v.depositMint, v.vaultVersion, v.shareOffset)

theorem Step.identity {c' : Chain} {i : Instruction} {v' : VaultState} (taken : Step c i c')
    (vault : c.vaults.lookup k = some v) (vault' : c'.vaults.lookup k = some v') : v'.identity = v.identity := by
  unfold VaultState.identity
  rcases taken.terms vault vault' with same | change | ⟨rfl, _⟩ | ⟨_, _, _, rfl⟩
  · rw [same.1, same.2.1, same.2.2.1, same.2.2.2.2.2.2.1]
  · rw [change.shareMint, change.depositMint, change.vaultVersion, change.shareOffset]
  · rfl
  · rfl

/-- A vault that no step of a run creates was there throughout. -/
theorem Run.vault_back (run : Run Step c₀ history c) (silent : ∀ event ∈ history, event.2.creates ≠ some k)
    (vault : c.vaults.lookup k = some v) : (∀ event ∈ history, ∃ w, event.1.vaults.lookup k = some w) ∧
      ∃ w, c₀.vaults.lookup k = some w ∧ v.identity = w.identity := by
  induction run generalizing v with
  | start => exact ⟨fun event member => (by cases member), v, vault, rfl⟩
  | @next history t i u previous taken ih =>
    obtain ⟨other, before⟩ := List.forall_mem_cons.mp silent
    cases found : t.vaults.lookup k with
    | none =>
      obtain ⟨a, _, _, _, _, _, _, _, _, rfl, rfl, _⟩ := taken.vault_new found vault
      exact absurd rfl other
    | some w =>
      obtain ⟨there, w₀, vault₀, same⟩ := ih before found
      exact ⟨List.forall_mem_cons.mpr ⟨⟨w, found⟩, there⟩, w₀, vault₀, (taken.identity found vault).trans same⟩

theorem Instruction.creates_eq_some {i : Instruction} (creates : i.creates = some k) :
    ∃ a admin operator feeRecipient vaultVersion shareOffset,
      i = .vault (.initializeVault a admin operator feeRecipient vaultVersion shareOffset) ∧ a.vaultState = k := by
  unfold Instruction.creates at creates
  split at creates
  · exact ⟨_, _, _, _, _, _, rfl, Option.some.inj creates⟩
  · cases creates

theorem Initialize.Ran.mint_made {a : Initialize} {vaultVersion shareOffset : Nat} {deposit : Mint}
    {withMint withReserve : Bank} (ran : Initialize.Ran c a vaultVersion shareOffset deposit withMint withReserve) :
    ∃ m, withReserve.mints.lookup (.shareMint a.depositMint vaultVersion) = some m := by
  obtain ⟨_, rfl⟩ := Bank.initializeMint_eq_ok.mp ran.creates
  obtain ⟨_, _, rfl⟩ := Bank.initializeAccount_eq_ok.mp ran.reserves
  rw [← ran.shareMintKey]
  exact ⟨_, Finmap.lookup_insert _⟩

/-- The share mint outlives its vault, so that no vault comes to an address a second time. -/
theorem Run.vault_once (run : Run Step c₀ history c) (k : Pubkey) :
    (history.countP fun event => event.2.creates = some k) ≤ 1 := by
  cases k with
  | vaultState depositMint vaultVersion =>
    refine (run.at_most_once (P := fun t => ∃ m, t.bank.mints.lookup (.shareMint depositMint vaultVersion) = some m)
      (B := fun i => i.creates = some (.vaultState depositMint vaultVersion)) (fun _ _ _ taken => taken.mint_stays)
      fun t i u taken creates => ?_).1
    obtain ⟨a, _, _, _, version, _, rfl, here⟩ := Instruction.creates_eq_some (of_decide_eq_true creates)
    obtain ⟨_, _, _, ran, rfl⟩ := Initialize.handler_eq_ok taken.executed
    cases here.symm.trans ran.key
    refine ⟨?_, ran.mint_made⟩
    rintro ⟨m, there⟩
    cases ran.mint_fresh.symm.trans there
  | _ =>
    refine (List.countP_eq_zero.mpr fun event member creates => ?_).le.trans (Nat.zero_le 1)
    obtain ⟨_, after, _, _, taken⟩ := run.at_event member
    obtain ⟨a, _, _, _, _, _, label, here⟩ := Instruction.creates_eq_some (of_decide_eq_true creates)
    rw [label] at taken
    obtain ⟨_, _, _, ran, _⟩ := Initialize.handler_eq_ok taken.executed
    cases here.symm.trans ran.key

/-- A vault was created once, by the key that might, with the mints, the version and the offset it has, and it has
been there since. -/
theorem vault_provenance (first : c₀.Genesis) (run : Run Step c₀ history c) (vault : c.vaults.lookup k = some v) :
    (history.countP fun event => event.2.creates = some k) = 1 ∧
      ∃ later t a admin operator feeRecipient vaultVersion shareOffset earlier, history =
          later ++ (t, .vault (.initializeVault a admin operator feeRecipient vaultVersion shareOffset)) :: earlier ∧
        a.vaultState = k ∧ t.config = some ⟨a.signer⟩ ∧
        v.identity = (a.shareMint, a.depositMint, vaultVersion.toNat, shareOffset.toNat) ∧
        ∀ event ∈ later, ∃ w, event.1.vaults.lookup k = some w := by
  obtain ⟨_, rfl⟩ := first
  rcases latest (fun i => i.creates = some k) history with never | ⟨later, t, i, earlier, rfl, creates, newer⟩
  · obtain ⟨_, w, absent, _⟩ := Run.vault_back run never vault
    cases absent
  · obtain ⟨next, _, made, rest⟩ := run.split
    obtain ⟨a, admin, operator, feeRecipient, vaultVersion, shareOffset, rfl, here⟩ :=
      Instruction.creates_eq_some creates
    obtain ⟨there, w, vault', same⟩ := Run.vault_back rest newer vault
    obtain ⟨_, _, withReserve, ran, rfl⟩ := Initialize.handler_eq_ok made.executed
    rw [← here] at vault'
    cases Option.some.inj ((Finmap.lookup_insert _).symm.trans vault')
    refine ⟨Nat.le_antisymm (Run.vault_once run k) (List.countP_pos_iff.mpr ⟨_, List.mem_append_right _
      List.mem_cons_self, decide_eq_true creates⟩), later, t, a, admin, operator, feeRecipient, vaultVersion,
      shareOffset, earlier, rfl, here, ran.config, same, there⟩

end Runs

open Sample in
theorem opened_config_provenance : admin ≠ .default ∧
    (openingEvents.countP fun event => event.2.createsConfig) = 1 ∧
      ∃ later t i earlier, openingEvents = later ++ (t, i) :: earlier ∧ i.appoints = some admin ∧
        t.governance.Permits i ∧ ∀ event ∈ later, event.2.appoints = none :=
  @config_provenance _ _ _ ⟨admin⟩ ⟨_, rfl⟩ opening_run (by decide +kernel)

open Sample in
theorem opened_vault_provenance : (openingEvents.countP fun event => event.2.creates = some vault) = 1 ∧
    ∃ later t a admin operator feeRecipient vaultVersion shareOffset earlier, openingEvents =
        later ++ (t, .vault (.initializeVault a admin operator feeRecipient vaultVersion shareOffset)) :: earlier ∧
      a.vaultState = vault ∧ t.config = some ⟨a.signer⟩ ∧
      vaultOpened.identity = (a.shareMint, a.depositMint, vaultVersion.toNat, shareOffset.toNat) ∧
      ∀ event ∈ later, ∃ w, event.1.vaults.lookup vault = some w :=
  vault_provenance ⟨_, rfl⟩ opening_run opened_vault

end Upshift
