import Upshift.Vault.Opening
import Upshift.Vault.Splitting

namespace Upshift
open Guard KeyedStore History OffsetPrice

def Instruction.burns (i : Instruction) (mint : Pubkey) : Bool :=
  match i with
  | .token (.burn _ burned _ _) => burned = mint
  | _ => false

/-- From a vault above par at one moment to the same vault after `count` deposits. -/
structure Chain.Raised (c t : Chain) (v v' : VaultState) (count : Nat) : Prop where
  traded : v.Traded v'
  issued : OffsetPrice.Issued (v.resolvedShareOffset : ℚ) (c.bank.supply v.shareMint : Nat)
    (v.localAum + v.deployedAum : Nat) (t.bank.supply v.shareMint : Nat) (v'.localAum + v'.deployedAum : Nat) count

section Raised
variable {c c' t u : Chain} {k : Pubkey} {v v' v'' : VaultState} {amount minted count count' : Nat}
  {history : List (Chain × Instruction)}

theorem Chain.Raised.refl (above : c.bank.supply v.shareMint ≤ v.localAum + v.deployedAum) : c.Raised c v v 0 := by
  refine ⟨rfl, ?_⟩
  rw [Nat.cast_zero]
  exact .refl _ (Nat.cast_le.mpr above)

theorem Chain.Raised.trans (first : c.Raised t v v' count) (second : t.Raised u v' v'' count')
    (above : c.bank.supply v.shareMint ≤ v.localAum + v.deployedAum) : c.Raised u v v'' (count + count') := by
  have issued := second.issued
  obtain ⟨offset, shareMint, _⟩ := first.traded.terms
  rw [offset, shareMint] at issued
  refine ⟨first.traded.trans second.traded, ?_⟩
  rw [Nat.cast_add count]
  exact first.issued.trans issued (Nat.cast_pos.mpr v.resolvedShareOffset_pos) (Nat.cast_nonneg _)
    (Nat.cast_le.mpr above) (Nat.cast_nonneg _) (Nat.cast_nonneg _)

/-- A deposit buys all the shares it can pay for, so that it could not have paid for one more. -/
theorem Chain.Entry.raised (entry : c.Entry c' k v amount minted)
    (above : c.bank.supply v.shareMint ≤ v.localAum + v.deployedAum) :
    c.Raised c' v { v with localAum := v.localAum + amount } 1 := by
  have positive : (0 : ℚ) < v.resolvedShareOffset := Nat.cast_pos.mpr v.resolvedShareOffset_pos
  obtain ⟨_, quoted⟩ := Chain.depositQuote_eq_ok.mp entry.quoted
  have fair := sharesForDeposit_fair v.resolvedShareOffset_pos quoted
  obtain ⟨defined, floor⟩ := VaultState.sharesForDeposit_value quoted
  rw [deposit_floor defined v.resolvedShareOffset_pos] at floor
  have worth : 0 < Upshift.sharePrice v.resolvedShareOffset (c.bank.supply v.shareMint) (v.localAum + v.deployedAum) :=
    price_pos positive (Nat.cast_nonneg _) (Nat.cast_nonneg _)
      (defined.imp Nat.cast_pos.mpr Nat.cast_eq_zero.mpr)
  have most := Nat.lt_floor_add_one
    ((amount : ℚ) / Upshift.sharePrice v.resolvedShareOffset (c.bank.supply v.shareMint) (v.localAum + v.deployedAum))
  rw [← floor, div_lt_iff₀ worth] at most
  have held : v.localAum + amount + v.deployedAum = v.localAum + v.deployedAum + amount := Nat.add_right_comm _ _ _
  refine ⟨rfl, ?_⟩
  rw [entry.minted, held, Nat.cast_one, Nat.cast_add (c.bank.supply v.shareMint), Nat.cast_add _ amount]
  exact .single positive (Nat.cast_nonneg _) (Nat.cast_le.mpr above) (Nat.one_le_cast.mpr entry.positive) fair most.le

theorem raising_run (run : Run Step c history t) (vault : c.vaults.lookup k = some v) (addressed : v.Addressed k)
    (above : c.bank.supply v.shareMint ≤ v.localAum + v.deployedAum) (every : ∀ event ∈ history, event.2.enters k) :
    ∃ v', t.vaults.lookup k = some v' ∧ c.Raised t v v' history.length := by
  induction run with
  | start => exact ⟨v, vault, .refl above⟩
  | @next history t i u previous taken ih =>
    obtain ⟨v', atMiddle, before⟩ := ih fun event member => every event (List.mem_cons_of_mem _ member)
    have entry := taken.entry (every (t, i) List.mem_cons_self) atMiddle (before.traded.addressed addressed)
    have still := Nat.cast_le.mp before.issued.above
    rw [← before.traded.terms.2.1] at still
    exact ⟨_, entry.vault, before.trans (entry.raised still) above⟩

end Raised

theorem Step.burn_vaults {c c' : Chain} {i : Instruction} {mint : Pubkey} (taken : Step c i c') (burns : i.burns mint) :
    c'.vaults = c.vaults := by
  have executed := taken.executed
  unfold Instruction.burns at burns
  split at burns
  · simp only [Chain.execute, bind_eq_ok, pure_eq_ok] at executed
    obtain ⟨_, _, rfl⟩ := executed
    rfl
  · cases burns

theorem burning_run {c t : Chain} {mint : Pubkey} {history : List (Chain × Instruction)} (run : Run Step c history t)
    (every : ∀ event ∈ history, event.2.burns mint) : t.vaults = c.vaults := by
  induction run with
  | start => rfl
  | @next history t i u previous taken ih =>
    have before := ih fun event member => every event (List.mem_cons_of_mem _ member)
    exact (taken.burn_vaults (every (t, i) List.mem_cons_self)).trans before

/-- The sole holder of a vault that was opened empty for `stake` burns all but `keep` of the shares, and others
deposit afterwards. -/
structure BurnManoeuvre (k : Pubkey) (v : VaultState) (stake keep : Nat) (deposits : List (Chain × Instruction))
    (c opened burned t : Chain) (v' : VaultState) : Prop where
  vault : c.vaults.lookup k = some v
  addressed : v.Addressed k
  empty : v.localAum = 0 ∧ v.deployedAum = 0
  unissued : c.bank.supply v.shareMint = 0
  opening : ∃ i, Step c i opened ∧ i.enters k ∧ i.enterAmount = stake
  burning : ∃ burns, Run Step opened burns burned ∧ ∀ event ∈ burns, event.2.burns v.shareMint
  kept : burned.bank.supply v.shareMint = keep
  less : keep < stake
  depositing : Run Step burned deposits t
  enters : ∀ event ∈ deposits, event.2.enters k
  after : t.vaults.lookup k = some v'

section Manoeuvre
variable {k : Pubkey} {v v' : VaultState} {stake keep out : Nat} {deposits : List (Chain × Instruction)}
  {c opened burned t : Chain}

/-- An empty vault mints a share for each unit of its first deposit. -/
theorem BurnManoeuvre.opened_at_par (played : BurnManoeuvre k v stake keep deposits c opened burned t v') :
    opened.bank.supply v.shareMint = stake ∧ opened.vaults.lookup k = some { v with localAum := stake } := by
  obtain ⟨i, taken, enters, rfl⟩ := played.opening
  have entry := taken.entry enters played.vault played.addressed
  obtain ⟨_, quoted⟩ := Chain.depositQuote_eq_ok.mp entry.quoted
  obtain ⟨localEmpty, deployedEmpty⟩ := played.empty
  rw [played.unissued, localEmpty, deployedEmpty] at quoted
  have bought := sharesForDeposit_empty v.resolvedShareOffset_pos quoted
  have minted := entry.minted
  have vault := entry.vault
  rw [played.unissued, bought, Nat.zero_add] at minted
  rw [localEmpty, Nat.zero_add] at vault
  exact ⟨minted, vault⟩

theorem BurnManoeuvre.raised (played : BurnManoeuvre k v stake keep deposits c opened burned t v') :
    burned.Raised t { v with localAum := stake } v' deposits.length := by
  obtain ⟨_, burns, every⟩ := played.burning
  have vault := (burning_run burns every) ▸ played.opened_at_par.2
  have less := played.less
  have kept := played.kept
  obtain ⟨w, after, raised⟩ := raising_run played.depositing vault
    ⟨played.addressed.key, played.addressed.shareMint⟩ (by simp only; omega) played.enters
  cases Option.some.inj (after.symm.trans played.after)
  exact raised

theorem BurnManoeuvre.out_le (played : BurnManoeuvre k v stake keep deposits c opened burned t v')
    (quoted : t.redeemQuote v' keep = .ok out) :
    out * ((keep + v.resolvedShareOffset) * (keep + v.resolvedShareOffset + 1)) ≤
      keep * (stake + v.resolvedShareOffset) * (keep + v.resolvedShareOffset + deposits.length + 1) := by
  have raised := played.raised
  obtain ⟨offset, shareMint, _⟩ := raised.traded.terms
  have growth := raised.issued.price_le
  simp only [played.kept, played.empty.2, Nat.add_zero] at growth
  change price (v.resolvedShareOffset : ℚ) _ _ * (keep + v.resolvedShareOffset + 1) ≤
    price (v.resolvedShareOffset : ℚ) _ _ * (keep + v.resolvedShareOffset + 1 + deposits.length) at growth
  have paid := assetsForRedeem_fair v'.resolvedShareOffset_pos (Chain.redeemQuote_eq_ok.mp quoted).2
  rw [Upshift.sharePrice, offset, shareMint] at paid
  have start := (price_claims (Nat.cast_pos.mpr v.resolvedShareOffset_pos : (0 : ℚ) < v.resolvedShareOffset)
    (Nat.cast_nonneg keep) (Nat.cast_nonneg stake)).1
  change (out : ℚ) ≤ keep * price (v.resolvedShareOffset : ℚ) (t.bank.supply v.shareMint : Nat) _ at paid
  generalize price (v.resolvedShareOffset : ℚ) (t.bank.supply v.shareMint : Nat) (v'.localAum + v'.deployedAum : Nat)
    = p' at *
  generalize price (v.resolvedShareOffset : ℚ) keep stake = p at *
  have some : (0 : ℚ) ≤ keep := Nat.cast_nonneg keep
  have shift : (0 : ℚ) ≤ v.resolvedShareOffset := Nat.cast_nonneg _
  have number : (0 : ℚ) ≤ deposits.length := Nat.cast_nonneg _
  have bound : (out : ℚ) * ((keep + v.resolvedShareOffset) * (keep + v.resolvedShareOffset + 1)) ≤
      keep * (stake + v.resolvedShareOffset) * (keep + v.resolvedShareOffset + deposits.length + 1) := by
    calc (out : ℚ) * ((keep + v.resolvedShareOffset) * (keep + v.resolvedShareOffset + 1))
        ≤ keep * p' * ((keep + v.resolvedShareOffset) * (keep + v.resolvedShareOffset + 1)) :=
          mul_le_mul_of_nonneg_right paid (by positivity)
      _ = keep * (keep + v.resolvedShareOffset) * (p' * (keep + v.resolvedShareOffset + 1)) := by ring
      _ ≤ keep * (keep + v.resolvedShareOffset) * (p * (keep + v.resolvedShareOffset + 1 + deposits.length)) :=
          mul_le_mul_of_nonneg_left growth (by positivity)
      _ = keep * (keep + v.resolvedShareOffset + deposits.length + 1) * (p * (keep + v.resolvedShareOffset)) := by ring
      _ ≤ keep * (keep + v.resolvedShareOffset + deposits.length + 1) * (stake + v.resolvedShareOffset) :=
          mul_le_mul_of_nonneg_left start (by positivity)
      _ = keep * (stake + v.resolvedShareOffset) * (keep + v.resolvedShareOffset + deposits.length + 1) := by ring
  exact_mod_cast bound

/-- What the manoeuvre returns, gross, against what was staked: a redemption of the kept shares would take the quote
from the reserve (`Step.exit_flow`). The offset dominates what the deposits round off in favour of the kept
shares. -/
theorem burn_manoeuvre_bounded (played : BurnManoeuvre k v stake keep deposits c opened burned t v')
    (quoted : t.redeemQuote v' keep = .ok out) :
    opened.bank.supply v.shareMint = stake ∧
    out ≤ keep * (stake + v.resolvedShareOffset) * (keep + v.resolvedShareOffset + deposits.length + 1) /
      ((keep + v.resolvedShareOffset) * (keep + v.resolvedShareOffset + 1)) ∧
    (keep * (stake + v.resolvedShareOffset) * (keep + v.resolvedShareOffset + deposits.length + 1) <
      stake * (keep + v.resolvedShareOffset) * (keep + v.resolvedShareOffset + 1) → out < stake) ∧
    (keep = 1 → (stake + v.resolvedShareOffset) * (deposits.length + v.resolvedShareOffset + 2) <
      stake * (v.resolvedShareOffset + 1) * (v.resolvedShareOffset + 2) → out < stake) := by
  have bound := played.out_le quoted
  have positive : 0 < (keep + v.resolvedShareOffset) * (keep + v.resolvedShareOffset + 1) :=
    Nat.mul_pos (Nat.add_pos_right keep v.resolvedShareOffset_pos) (Nat.succ_pos _)
  have losing : keep * (stake + v.resolvedShareOffset) * (keep + v.resolvedShareOffset + deposits.length + 1) <
      stake * (keep + v.resolvedShareOffset) * (keep + v.resolvedShareOffset + 1) → out < stake := by
    intro small
    rw [Nat.mul_assoc stake] at small
    exact Nat.lt_of_mul_lt_mul_right (bound.trans_lt small)
  refine ⟨played.opened_at_par.1, (Nat.le_div_iff_mul_le positive).mpr bound, losing, ?_⟩
  rintro rfl small
  refine losing ?_
  rw [Nat.one_mul]
  have ends : 1 + v.resolvedShareOffset + deposits.length + 1 = deposits.length + v.resolvedShareOffset + 2 := by omega
  have first : 1 + v.resolvedShareOffset = v.resolvedShareOffset + 1 := Nat.add_comm _ _
  rw [ends, first]
  exact small

end Manoeuvre

namespace Sample

/-- All but one share of the first deposit are burned, and two more deposits follow. -/
def staked : Chain := launched.next (.vault (.deposit deposit 200000))

def burnt : Chain := staked.runAll [.token (.burn (shares user) shareMint user 199999)]

def crowd : List Instruction := [.vault (.deposit deposit 300000), .vault (.deposit deposit 300000)]

def vaultCrowded : VaultState := { vaultOpened with localAum := 800000 }

theorem burnt_played : BurnManoeuvre vault vaultLaunched 200000 1 (burnt.events crowd) launched
    staked burnt (burnt.runAll crowd) vaultCrowded where
  vault := launched_vault
  addressed := ⟨rfl, rfl⟩
  empty := ⟨rfl, rfl⟩
  unissued := by decide +kernel
  opening := ⟨_, .of_accepts (by decide +kernel), by decide, by decide⟩
  burning := ⟨_, Chain.runAll_run staked _, by decide +kernel⟩
  kept := by decide +kernel
  less := by decide
  depositing := Chain.runAll_run burnt crowd
  enters := by decide +kernel
  after := by decide +kernel

end Sample

open Sample in
theorem burnt_stake_lost : (burnt.runAll crowd).redeemQuote vaultCrowded 1 = .ok 200 ∧ 200 < 200000 := by
  have quoted : (burnt.runAll crowd).redeemQuote vaultCrowded 1 = .ok 200 := by decide +kernel
  have bounded := burn_manoeuvre_bounded burnt_played quoted
  exact ⟨quoted, bounded.2.2.2 rfl (by decide +kernel)⟩

end Upshift
