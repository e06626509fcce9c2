import Upshift.Isolation.Replay
import Upshift.Queue.Caller

namespace Upshift
open Guard KeyedStore

theorem Reachable.placed {c : Chain} (reach : Reachable c) : c.Placed := by
  constructor
  · intro k v found
    exact Pubkey.partOf_vaultState (reach.vaults_sound k v found).formed.key
  · intro k q found
    obtain ⟨_, key, _⟩ := (reach.queues_sound k q found).formed.vault
    exact Pubkey.partOf_vaultState key

/-- A derived address is part of one vault only. -/
theorem Pubkey.partOf_other {k k' x : Pubkey} (different : k' ≠ k) (owned : k.partOf x = true) :
    k'.partOf x = false := by
  refine decide_eq_false ?_
  intro here
  exact different (Option.some.inj (here.symm.trans (of_decide_eq_true owned)))

theorem Instruction.deposits_concerns {i : Instruction} {a : Deposit} {amount minSharesOut : Nat}
    (label : i.deposits = some (a, amount, minSharesOut)) : i.concerns = some a.vaultState := by
  obtain ⟨_, rfl, rfl, _⟩ | ⟨_, _, rfl, rfl, _⟩ := Instruction.deposits_eq_some label
  · rfl
  · rfl

theorem Instruction.redeems_concerns {i : Instruction} {a : Redeem} {shares minAssetsOut : Nat}
    (label : i.redeems = some (a, shares, minAssetsOut)) : i.concerns = some a.vaultState := by
  obtain ⟨_, rfl, rfl, _⟩ | ⟨_, _, rfl, rfl, _⟩ := Instruction.redeems_eq_some label
  · rfl
  · rfl

theorem Bank.initAssociatedIfNeeded_mints {b b' : Bank} {account mint authority : Pubkey}
    (ran : b.initAssociatedIfNeeded account mint authority = .ok b') : b'.mints = b.mints := by
  obtain ⟨_, opened | ⟨rfl, _⟩⟩ := Bank.initAssociatedIfNeeded_eq_ok ran
  · exact Bank.initializeAccount_mints opened
  · rfl

section Step
variable {c c' : Chain} {i : Instruction}

/-- An instruction signs for the vault it names and for the queue of that vault only. -/
theorem Step.acts_within (taken : Step c i c') {a : Pubkey} (acts : a ∈ i.derivedSigners) :
    ∃ k, i.concerns = some k ∧ (a = k ∨ a = .withdrawalQueue k) := by
  have ran := taken.executed
  cases i with
  | vault i =>
    cases i with
    | deposit b | depositChecked b | redeem b | redeemChecked b | operatorWithdraw b | operatorDeposit b
    | closeVault b => exact ⟨b.vaultState, rfl, Or.inl (List.mem_singleton.mp acts)⟩
    | _ => cases acts
  | queue i =>
    cases i with
    | cancelWithdrawal b =>
      obtain ⟨q, _, _, spec, _⟩ := CancelWithdrawal.handler_eq_ok.mp ran
      refine ⟨q.vaultState, ?_, Or.inr ((List.mem_singleton.mp acts).trans spec.queueKey)⟩
      change b.queue.vaultOf = _
      rw [spec.queueKey]
      rfl
    | sweepEscrowShares b =>
      obtain ⟨q, _, _, _, spec, _⟩ := SweepEscrowShares.handler_eq_ok.mp ran
      exact ⟨b.vaultState, rfl, Or.inr ((List.mem_singleton.mp acts).trans spec.queueKey)⟩
    | finalizeWithdrawal b =>
      obtain ⟨_, _, _, _, _, _, _, _, _, _, _, spec, _⟩ := FinalizeWithdrawal.handler_eq_ok.mp ran
      rcases List.mem_pair.mp acts with vault | queue
      · exact ⟨b.vaultState, rfl, Or.inl vault⟩
      · exact ⟨b.vaultState, rfl, Or.inr (queue.trans spec.valid.queueKey)⟩
    | _ => cases acts
  | token | clock | setUpgradeAuthority => cases acts

/-- An instruction of either program rewrites no mint but the share mint of the vault it names. -/
theorem Step.mint_beyond (taken : Step c i c') (program : ∀ t, i ≠ .token t) {mint : Pubkey}
    (other : ∀ depositMint vaultVersion, i.concerns = some (.vaultState depositMint vaultVersion) →
      mint ≠ .shareMint depositMint vaultVersion) :
    c'.bank.mints.lookup mint = c.bank.mints.lookup mint := by
  have redeemed : ∀ {a : Redeem} {shares minAssetsOut v m assets fees paid}, i.concerns = some a.vaultState →
      Redeem.Ran c a shares minAssetsOut v m assets fees paid →
      paid.mints.lookup mint = c.bank.mints.lookup mint := by
    intro a _ _ v _ _ _ _ concerns ran
    have different : mint ≠ a.shareMint := by
      rw [ran.valid.shareMintKey]
      exact other _ _ (concerns.trans (congrArg some ran.valid.key))
    obtain ⟨_, _, burns, paysFee, pays⟩ := Redeem.interactions_eq_ok.mp ran.interactions
    rw [Bank.transfer_mints pays, Bank.transfer_mints paysFee, Bank.burn_mints burns different]
  cases taken.move with
  | quiet _ bank | configured _ _ _ bank | detached _ _ _ bank | scheduled _ _ _ bank => rw [bank]
  | attached | reported | registered | deregistered | settled | expedited => rfl
  | @initialized a _ _ _ _ _ _ _ _ label ran =>
    have different : mint ≠ a.shareMint := by
      rw [ran.shareMintKey]
      refine other _ _ ?_
      rw [label, ← ran.key]
      rfl
    have reserves := congrArg (·.lookup mint) (Bank.initializeAccount_mints ran.reserves)
    exact reserves.trans (Bank.initializeMint_mints ran.creates different)
  | @closed a _ _ _ _ label ran =>
    have different : mint ≠ a.shareMint := by
      rw [ran.shareMintKey]
      refine other _ _ ?_
      rw [label, ← ran.key]
      rfl
    have closes := congrArg (·.lookup mint) (Bank.closeAccount_mints ran.closes)
    exact (Bank.setMintAuthority_mints ran.revokes different).trans closes
  | @deposited a _ _ _ _ _ _ _ label ran =>
    have different : mint ≠ a.shareMint := by
      rw [ran.valid.shareMintKey]
      exact other _ _ ((Instruction.deposits_concerns label).trans (congrArg some ran.valid.key))
    exact (Bank.mintTo_mints ran.mints different).trans (congrArg (·.lookup mint) (Bank.transfer_mints ran.pays))
  | redeemed label ran => exact redeemed (Instruction.redeems_concerns label) ran
  | withdrew _ ran | returned _ ran => exact congrArg (·.lookup mint) (Bank.transfer_mints ran.pays)
  | opened _ ran =>
    have assets := Bank.initAssociatedIfNeeded_mints ran.assets
    exact congrArg (·.lookup mint) (assets.trans (Bank.initAssociatedIfNeeded_mints ran.shares))
  | requested _ ran => exact congrArg (·.lookup mint) (Bank.transfer_mints ran.escrows)
  | cancelled _ ran => exact congrArg (·.lookup mint) (Bank.transfer_mints ran.returns)
  | @finalized a _ _ _ _ _ _ _ _ _ _ _ _ label ran =>
    have concerns : i.concerns = some a.redeem.vaultState := by
      rw [label]
      rfl
    exact (congrArg (·.lookup mint) (Bank.transfer_mints ran.forwards)).trans (redeemed concerns ran.redeem)
  | swept _ ran => exact congrArg (·.lookup mint) (Bank.transfer_mints ran.sweeps)
  | banked label => exact absurd label (program _)

theorem Chain.Beyond.restrict {k k' : Pubkey} (beyond : c.Beyond c' k') (different : k' ≠ k) :
    c'.restrict k = { c.restrict k with bank := c'.bank } := by
  have beside : ∀ x, k.partOf x = true → k'.partOf x = false := fun _ => Pubkey.partOf_other different
  have log : c'.log.filter (fun e => k.partOf e.queue) = c.log.filter fun e => k.partOf e.queue := by
    rcases beyond.log with same | ⟨e, grown, owned⟩
    · rw [same]
    · have outside := Pubkey.partOf_other different.symm owned
      simp only [grown, List.filter_cons, outside, Bool.false_eq_true, if_false]
  unfold Chain.restrict
  rw [restrict_congr fun x owned => beyond.vaults x (beside x owned),
    restrict_congr fun x owned => beyond.subaccounts x (beside x owned),
    restrict_congr fun x owned => beyond.nominations x (beside x owned), beyond.config,
    restrict_congr fun x owned => beyond.queues x (beside x owned),
    restrict_congr fun x owned => beyond.requests x (beside x owned), beyond.upgradeAuthority, beyond.clock, log]

/-- What a step leaves alone of the vault at `k`: all that is part of it. -/
theorem Step.restrict_other (taken : Step c i c') (placed : c.Placed) {k : Pubkey} (other : i.concerns ≠ some k) :
    c'.restrict k = { c.restrict k with
      bank := c'.bank
      config := c'.config
      upgradeAuthority := c'.upgradeAuthority
      clock := c'.clock } := by
  cases concerns : i.concerns with
  | none =>
    obtain ⟨⟨_, _, _, _, rfl⟩, _⟩ := taken.unconcerned concerns
    rfl
  | some k' =>
    obtain ⟨_, beyond, _⟩ := taken.alone placed concerns
    have different : k' ≠ k := fun same => other (concerns.trans (congrArg some same))
    rw [beyond.restrict different, beyond.config, beyond.upgradeAuthority, beyond.clock]
    rfl

/-- Whoever acts neither as the vault nor as its queue. -/
def Pubkey.Stranger (depositMint : Pubkey) (vaultVersion : Nat) (a : Pubkey) : Prop :=
  a ≠ .vaultState depositMint vaultVersion ∧ a ≠ .withdrawalQueue (.vaultState depositMint vaultVersion)

/-- What others may do to the tokens: the accounts of the vault and of its queue lose nothing, and its share mint
stays as it is. -/
structure Bank.Donates (b b' : Bank) (depositMint : Pubkey) (vaultVersion : Nat) : Prop where
  spared : b.Respects (Pubkey.Stranger depositMint vaultVersion) b'
  shareMint : b'.mints.lookup (.shareMint depositMint vaultVersion) =
    b.mints.lookup (.shareMint depositMint vaultVersion)
  sound : b.Sound → b'.Sound

theorem Step.donates (taken : Step c i c') (placed : c.Placed) (program : ∀ t, i ≠ .token t) {depositMint : Pubkey}
    {vaultVersion : Nat} (other : i.concerns ≠ some (.vaultState depositMint vaultVersion)) :
    c.bank.Donates c'.bank depositMint vaultVersion := by
  refine ⟨taken.respects.weaken ?_, taken.mint_beyond program ?_, taken.bank_sound⟩
  · rintro a (signs | acts)
    · exact ⟨Pubkey.ne_of_canSign signs rfl, Pubkey.ne_of_canSign signs rfl⟩
    · obtain ⟨k, concerns, named⟩ := taken.acts_within acts
      have derived := (taken.alone placed concerns).1
      constructor
      · rintro rfl
        rcases named with rfl | queue
        · exact other concerns
        · cases queue
      · rintro rfl
        rcases named with rfl | queue
        · cases derived
        · cases queue
          exact other concerns
  · intro depositMint' vaultVersion' concerns same
    cases same
    exact other concerns

/-- What a step leaves alone of the vault for a deposit mint and a version: its account, its nomination, its
entries, its queue, its requests and its shares. What the vault and its queue hold can only grow. -/
structure Chain.Untouched (c c' : Chain) (depositMint : Pubkey) (vaultVersion : Nat) : Prop where
  vault : c'.vaults.lookup (.vaultState depositMint vaultVersion) =
    c.vaults.lookup (.vaultState depositMint vaultVersion)
  nomination : c'.nominations.lookup (.nominatedAdmin depositMint vaultVersion) =
    c.nominations.lookup (.nominatedAdmin depositMint vaultVersion)
  entries : ∀ address, c'.subaccounts.lookup (.subaccount (.vaultState depositMint vaultVersion) address) =
    c.subaccounts.lookup (.subaccount (.vaultState depositMint vaultVersion) address)
  queue : c'.queues.lookup (.withdrawalQueue (.vaultState depositMint vaultVersion)) =
    c.queues.lookup (.withdrawalQueue (.vaultState depositMint vaultVersion))
  requests : ∀ owner requestId,
    c'.requests.lookup
        (.withdrawalRequest (.withdrawalQueue (.vaultState depositMint vaultVersion)) owner requestId) =
      c.requests.lookup
        (.withdrawalRequest (.withdrawalQueue (.vaultState depositMint vaultVersion)) owner requestId)
  shares : c'.bank.supply (.shareMint depositMint vaultVersion) = c.bank.supply (.shareMint depositMint vaultVersion)
  reserve : ∀ v, c.vaults.lookup (.vaultState depositMint vaultVersion) = some v →
    c.bank.balance v.reserve ≤ c'.bank.balance v.reserve
  escrows : ∀ q, c.queues.lookup (.withdrawalQueue (.vaultState depositMint vaultVersion)) = some q →
    c.bank.balance q.escrowShares ≤ c'.bank.balance q.escrowShares ∧
      c.bank.balance q.escrowAssets ≤ c'.bank.balance q.escrowAssets

theorem Step.untouched (taken : Step c i c') (reach : Reachable c) (program : ∀ t, i ≠ .token t)
    {depositMint : Pubkey} {vaultVersion : Nat} (other : i.concerns ≠ some (.vaultState depositMint vaultVersion)) :
    c.Untouched c' depositMint vaultVersion := by
  have same := taken.restrict_other reach.placed other
  have donates := taken.donates reach.placed program other
  have part : ∀ {α : Type} {s s' : Store Pubkey α} {x : Pubkey},
      KeyedStore.restrict (Pubkey.partOf (.vaultState depositMint vaultVersion)) s' =
        KeyedStore.restrict (Pubkey.partOf (.vaultState depositMint vaultVersion)) s →
      Pubkey.partOf (.vaultState depositMint vaultVersion) x = true → s'.lookup x = s.lookup x := by
    intro _ s s' x agree owned
    rw [← lookup_restrict owned, agree, lookup_restrict owned]
  constructor
  · exact part (congrArg Chain.vaults same) (Pubkey.partOf_vaultState rfl)
  · exact part (congrArg Chain.nominations same) (Pubkey.partOf_nominatedAdmin rfl rfl)
  · exact fun _ => part (congrArg Chain.subaccounts same) (Pubkey.partOf_subaccount rfl)
  · exact part (congrArg Chain.queues same) (Pubkey.partOf_withdrawalQueue rfl)
  · exact fun _ _ => part (congrArg Chain.requests same) (Pubkey.partOf_withdrawalRequest rfl)
  · simp only [Bank.supply, donates.shareMint]
  · intro v vault
    have sound := reach.vaults_sound _ v vault
    have away : ¬Pubkey.Stranger depositMint vaultVersion (.vaultState depositMint vaultVersion) :=
      fun stranger => stranger.1 rfl
    exact (sound.backed.respects donates.spared reach.bank_sound away).2.2
  · intro q queue
    have sound := reach.queues_sound _ q queue
    have away : ¬Pubkey.Stranger depositMint vaultVersion (.withdrawalQueue (.vaultState depositMint vaultVersion)) :=
      fun stranger => stranger.2 rfl
    exact (sound.escrows.respects donates.spared reach.bank_sound sound.formed away).2

end Step

/-- A step where there is no vault but one: an instruction that names it or none, or a donation by others. -/
inductive Chain.StepAlone (depositMint : Pubkey) (vaultVersion : Nat) : Chain → Option Instruction → Chain → Prop
  | acts {c i c'} (own : i.concerns = some (.vaultState depositMint vaultVersion) ∨ i.concerns = none)
      (taken : Step c i c') : StepAlone depositMint vaultVersion c (some i) c'
  | donated {c bank} (donates : c.bank.Donates bank depositMint vaultVersion) :
      StepAlone depositMint vaultVersion c none { c with bank := bank }

/-- What is left of an instruction where there is no vault but the one at `k`. -/
def Instruction.within (i : Instruction) (k : Pubkey) : Option Instruction :=
  if i.concerns = some k ∨ i.concerns = none then some i else none

section Run
variable {c₀ c c' : Chain} {i : Instruction} {history : List (Chain × Instruction)}

theorem Step.step_alone (taken : Step c i c') (placed : c.Placed) (depositMint : Pubkey) (vaultVersion : Nat) :
    Chain.StepAlone depositMint vaultVersion (c.restrict (.vaultState depositMint vaultVersion))
      (i.within (.vaultState depositMint vaultVersion)) (c'.restrict (.vaultState depositMint vaultVersion)) := by
  unfold Instruction.within
  by_cases own : i.concerns = some (.vaultState depositMint vaultVersion) ∨ i.concerns = none
  · rw [if_pos own]
    refine .acts own ?_
    rcases own with named | none
    · exact (taken.alone placed named).2.2
    · exact (taken.unconcerned none).2 _
  · rw [if_neg own]
    have other : i.concerns ≠ some (.vaultState depositMint vaultVersion) := fun named => own (Or.inl named)
    have program : ∀ t, i ≠ .token t := by
      rintro t rfl
      exact own (Or.inr rfl)
    obtain ⟨k', concerns⟩ := Option.ne_none_iff_exists'.mp fun none => own (Or.inr none)
    have different : k' ≠ .vaultState depositMint vaultVersion :=
      fun same => other (concerns.trans (congrArg some same))
    rw [(taken.alone placed concerns).2.1.restrict different]
    exact .donated (taken.donates placed program other)

/-- Every run restricts, on each vault, to a run of that vault alone. -/
theorem Run.restrict (first : c₀.Genesis) (run : History.Run Step c₀ history c) (depositMint : Pubkey)
    (vaultVersion : Nat) :
    History.Run (Chain.StepAlone depositMint vaultVersion) c₀
      (history.map fun event => (event.1.restrict (.vaultState depositMint vaultVersion),
        event.2.within (.vaultState depositMint vaultVersion)))
      (c.restrict (.vaultState depositMint vaultVersion)) := by
  induction run with
  | start =>
    obtain ⟨upgradeAuthority, rfl⟩ := first
    exact .start
  | @next history c i c' previous taken ih =>
    have reach : Reachable c := ⟨c₀, history, first.initial, previous⟩
    exact .next ih (taken.step_alone reach.placed depositMint vaultVersion)

/-- Vaults are isolated along a run: no step of either program touches two of them, and each takes the steps it
would take without the others. -/
structure Isolated (c₀ : Chain) (history : List (Chain × Instruction)) (c : Chain) : Prop where
  apart : ∀ i c' depositMint vaultVersion depositMint' vaultVersion', Step c i c' → (∀ t, i ≠ .token t) →
    (depositMint, vaultVersion) ≠ (depositMint', vaultVersion') →
    c.Untouched c' depositMint vaultVersion ∨ c.Untouched c' depositMint' vaultVersion'
  alone : ∀ depositMint vaultVersion, History.Run (Chain.StepAlone depositMint vaultVersion) c₀
    (history.map fun event => (event.1.restrict (.vaultState depositMint vaultVersion),
      event.2.within (.vaultState depositMint vaultVersion)))
    (c.restrict (.vaultState depositMint vaultVersion))

theorem vaults_isolated (first : c₀.Genesis) (run : History.Run Step c₀ history c) : Isolated c₀ history c := by
  refine ⟨?_, Run.restrict first run⟩
  intro i c' depositMint vaultVersion depositMint' vaultVersion' taken program different
  have reach : Reachable c := ⟨c₀, history, first.initial, run⟩
  by_cases named : i.concerns = some (.vaultState depositMint vaultVersion)
  · refine Or.inr (taken.untouched reach program ?_)
    intro named'
    cases named.symm.trans named'
    exact different rfl
  · exact Or.inl (taken.untouched reach program named)

end Run

namespace Sample

def twin : Pubkey := .vaultState mint 1
def twinShareMint : Pubkey := .shareMint mint 1
def twinReserve : Pubkey := .vaultToken mint 1

/-- A second vault of the same mint, its depositor also a holder of the first, and its reserve the recipient of a
withdrawal from the first. -/
def pairing : List Instruction :=
  [.vault (.initializeVault ⟨admin, mint, twin, twinShareMint, twinReserve⟩ admin operator admin 1 1000),
    .token (.createAssociatedAccount user twinShareMint),
    .vault (.deposit ⟨twin, twinReserve, wallet user, .associatedToken user twinShareMint, twinShareMint, mint, user⟩
      300000),
    .queue (.initializeQueue ⟨vault, admin, mint, shareMint, queue, escrowShares, escrowAssets⟩ 0),
    .vault (.attachWithdrawalQueue ⟨vault, mint, admin⟩ queue),
    .queue (.requestWithdrawal { requesting 7 with recipientTokenAccount := twinReserve } 7 50000 0 .default),
    .queue (.finalizeWithdrawal { payingFeeTo (wallet admin) with recipientTokenAccount := twinReserve } 1)]

def paired : Chain := (Chain.genesis (some admin)).runAll (opening ++ pairing)

example : ((Chain.genesis (some admin)).events (opening ++ pairing)).length = 16 ∧
    paired.bank.balance twinReserve = 350000 := by decide +kernel

end Sample

open Sample in
theorem paired_isolated :
    Isolated (Chain.genesis (some admin)) ((Chain.genesis (some admin)).events (opening ++ pairing)) paired :=
  vaults_isolated ⟨some admin, rfl⟩ (Chain.runAll_run _ (opening ++ pairing))

end Upshift
