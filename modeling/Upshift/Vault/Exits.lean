import Upshift.Vault.Quotes
import Upshift.Vault.Trades

namespace Upshift
open Guard KeyedStore History OffsetPrice

/-- From a vault at one moment to the same vault after some redemptions of `shares` for a gross amount. -/
structure Chain.Exited (c t : Chain) (v v' : VaultState) (shares gross count : Nat) : Prop where
  traded : v.Traded v'
  paid : v'.localAum + gross = v.localAum
  retired : OffsetPrice.Retired (v.resolvedShareOffset : ℚ) (c.bank.supply v.shareMint : Nat)
    (v.localAum + v.deployedAum : Nat) (t.bank.supply v.shareMint : Nat) (v'.localAum + v'.deployedAum : Nat)
    shares gross count

section Exited
variable {c t u c' : Chain} {i : Instruction} {k : Pubkey} {v v' v'' : VaultState}
  {shares gross count shares' gross' count' : Nat} {history : List (Chain × Instruction)}

theorem Chain.Exited.refl (c : Chain) (v : VaultState) : c.Exited c v v 0 0 0 := by
  refine ⟨rfl, rfl, ?_⟩
  rw [Nat.cast_zero]
  exact .refl _ _ _

theorem Chain.Exited.trans (first : c.Exited t v v' shares gross count)
    (second : t.Exited u v' v'' shares' gross' count') :
    c.Exited u v v'' (shares + shares') (gross + gross') (count + count') := by
  have paid := first.paid
  have paid' := second.paid
  have retired' := second.retired
  obtain ⟨offset, shareMint, _⟩ := first.traded.terms
  rw [offset, shareMint] at retired'
  refine ⟨first.traded.trans second.traded, by omega, ?_⟩
  rw [Nat.cast_add shares, Nat.cast_add gross, Nat.cast_add count]
  exact first.retired.trans retired' (Nat.cast_nonneg _)

theorem Chain.Exit.exited (exit : c.Exit c' k v shares gross) :
    c.Exited c' v { v with localAum := v.localAum - gross } shares gross 1 := by
  have positive : (0 : ℚ) < v.resolvedShareOffset := Nat.cast_pos.mpr v.resolvedShareOffset_pos
  have liquid := exit.liquid
  have kept : gross ≤ v.localAum + v.deployedAum := Nat.le_trans liquid (Nat.le_add_right _ _)
  have left : v.localAum - gross + v.deployedAum = v.localAum + v.deployedAum - gross := by omega
  have floor := Chain.redeemQuote_floor exit.quoted
  refine ⟨rfl, Nat.sub_add_cancel liquid, ?_⟩
  rw [exit.burned, left, Nat.cast_sub exit.covered, Nat.cast_sub kept]
  refine .single positive (Nat.cast_nonneg _) (Nat.cast_nonneg _) (Nat.cast_le.mpr exit.covered)
    (Nat.cast_le.mpr kept) (assetsForRedeem_fair v.resolvedShareOffset_pos (Chain.redeemQuote_eq_ok.mp exit.quoted).2) ?_
  rw [floor, Nat.cast_one]
  exact (Nat.lt_floor_add_one _).le

/-- Redemptions one after another are redemptions of their shares together, with a unit of rounding each. -/
theorem exits_run (run : Run Step c history t) (vault : c.vaults.lookup k = some v) (addressed : v.Addressed k)
    (every : ∀ event ∈ history, event.2.exits k) : ∃ v', t.vaults.lookup k = some v' ∧
      c.Exited t v v' (history.map fun event => event.2.exitShares).sum
        (history.map fun event => event.1.gross k event.2).sum history.length := by
  induction run with
  | start => exact ⟨v, vault, .refl c v⟩
  | @next history t i u previous taken ih =>
    obtain ⟨v', atMiddle, before⟩ := ih fun event member => every event (List.mem_cons_of_mem _ member)
    have exit := taken.exit (every (t, i) List.mem_cons_self) atMiddle (before.traded.addressed addressed)
    refine ⟨_, exit.vault, ?_⟩
    rw [List.map_cons, List.map_cons, List.sum_cons, List.sum_cons, List.length_cons, Nat.add_comm i.exitShares,
      Nat.add_comm (t.gross k i)]
    exact before.trans exit.exited

/-- The same shares are worth no less after other redemptions, and at most a unit more for each. -/
theorem Chain.Exited.floor_le (exited : c.Exited t v v' shares gross count) {rest : Nat}
    (remain : rest ≤ t.bank.supply v.shareMint) :
    ⌊(rest : ℚ) * c.sharePrice v⌋₊ ≤ ⌊(rest : ℚ) * t.sharePrice v'⌋₊ ∧
      ⌊(rest : ℚ) * t.sharePrice v'⌋₊ ≤ ⌊(rest : ℚ) * c.sharePrice v⌋₊ + count := by
  obtain ⟨offset, shareMint, _⟩ := exited.traded.terms
  have risen := exited.retired.price_le
  have gain := exited.retired.gain_le (Nat.cast_nonneg rest) (Nat.cast_le.mpr remain)
  simp only [Chain.sharePrice, Upshift.sharePrice, offset, shareMint]
  refine ⟨Nat.floor_mono (mul_le_mul_of_nonneg_left risen (Nat.cast_nonneg _)), ?_⟩
  have worth := price_nonneg (Nat.cast_pos.mpr v.resolvedShareOffset_pos : (0 : ℚ) < v.resolvedShareOffset)
    (Nat.cast_nonneg (c.bank.supply v.shareMint)) (Nat.cast_nonneg (v.localAum + v.deployedAum))
  rw [← Nat.floor_add_natCast (mul_nonneg (Nat.cast_nonneg _) worth)]
  exact Nat.floor_mono gain

end Exited

/-- The refusals of a vault that cannot pay: its assets are deployed, or its shares have no price. -/
def Error.unpayable : Error → Bool
  | .vault .notEnoughLiquidity | .vault .sharePriceUndefined => true
  | _ => false

/-- Everything the vault at `k` holds is in its reserve, and `shares` are no more than there are. -/
structure Chain.Exitable (c : Chain) (k : Pubkey) (v : VaultState) (shares : Nat) : Prop where
  vault : c.vaults.lookup k = some v
  addressed : v.Addressed k
  undeployed : v.deployedAum = 0
  priced : 0 < v.localAum ∨ c.bank.supply v.shareMint = 0
  covered : shares ≤ c.bank.supply v.shareMint

section Exitable
variable {c : Chain} {i : Instruction} {k : Pubkey} {v : VaultState} {shares rest : Nat} {script : List Instruction}

theorem VaultState.assetsForRedeem_fails {supply total offset : Nat} (defined : 0 < total ∨ supply = 0) :
    FailsWith (·.unpayable = false) (VaultState.assetsForRedeemWithOffset supply total shares offset) := by
  refine .bind (.require fun undefined => absurd defined undefined) fun _ _ => ?_
  refine .bind (.okOr fun _ => rfl) fun _ _ => ?_
  refine .bind (.okOr fun _ => rfl) fun _ _ => ?_
  refine .bind (.okOr fun _ => rfl) fun _ _ => ?_
  refine .bind (.okOr fun _ => rfl) fun _ _ => ?_
  dsimp only
  split
  · exact .bind (.pure _) fun _ _ => .okOr fun _ => rfl
  · refine .bind (.okOr fun _ => rfl) fun _ _ => ?_
    refine .bind (.okOr fun _ => rfl) fun _ _ => ?_
    exact .bind (.pure _) fun _ _ => .okOr fun _ => rfl

theorem Redeem.fees_fails {assets withdrawalFee : Nat} :
    FailsWith (·.unpayable = false) (Redeem.fees assets withdrawalFee) :=
  .bind (.okOr fun _ => rfl) fun _ _ => .bind (.okOr fun _ => rfl) fun _ _ => .okOr fun _ => rfl

theorem Chain.Exitable.redeem_fails {a : Redeem} {minAssetsOut : Nat} (exitable : c.Exitable a.vaultState v shares) :
    FailsWith (·.unpayable = false) (Redeem.handlerChecked c a shares minAssetsOut) := by
  refine .bind (Redeem.accounts_fails.weaken ?_) fun found accounts => ?_
  · rintro _ ⟨_, rfl⟩
    rfl
  obtain ⟨v₀, supply⟩ := found
  obtain ⟨m, valid, rfl⟩ := Redeem.accounts_eq_ok.mp accounts
  cases Option.some.inj (exitable.vault.symm.trans valid.vault)
  have shareMint := exitable.addressed.mint_eq valid.key valid.shareMintKey
  have supply : c.bank.supply v.shareMint = m.supply := by rw [shareMint, Bank.supply_of_lookup valid.shareMint]
  have priced := exitable.priced
  have covered := exitable.covered
  have undeployed := exitable.undeployed
  rw [supply] at priced covered
  refine .bind (.require fun _ => rfl) fun _ _ => ?_
  refine .bind (.require fun _ => rfl) fun _ _ => ?_
  refine .bind (.require fun _ => rfl) fun _ _ => ?_
  refine .bind (.okOr fun _ => rfl) fun total totals => ?_
  obtain ⟨_, rfl⟩ := VaultState.totalAssets_eq_ok.mp totals
  refine .bind (VaultState.assetsForRedeem_fails (by omega)) fun assets quoted => ?_
  refine .bind Redeem.fees_fails fun _ _ => ?_
  refine .bind (.okOr fun _ => rfl) fun _ _ => ?_
  refine .bind (.require fun _ => rfl) fun _ _ => ?_
  refine .bind (.require fun _ => rfl) fun _ _ => ?_
  refine .bind (.require fun short => absurd ?_ short) fun _ _ => ?_
  · -- No part of the shares is worth more than everything, which is all in the reserve.
    have most := @redeem_floor_le _ (v.localAum + v.deployedAum) _ _ v.resolvedShareOffset_pos covered
    rw [← assetsForRedeem_floor quoted] at most
    omega
  refine .bind (.okOr fun _ => rfl) fun _ _ => ?_
  refine .bind (Redeem.interactions_fails.weaken ?_) fun _ _ => .pure _
  rintro _ ⟨_, rfl⟩
  rfl

theorem Chain.Exitable.fails (exitable : c.Exitable k v shares) (exits : i.exits k) (part : i.exitShares ≤ shares) :
    FailsWith (·.unpayable = false) (c.process i) := by
  obtain ⟨a, minAssetsOut, label, rfl⟩ := Instruction.exits_eq exits
  refine .bind (.require fun _ => rfl) fun _ _ => ?_
  rw [Chain.execute_redeems label]
  exact Chain.Exitable.redeem_fails { exitable with covered := part.trans exitable.covered }

/-- A redemption leaves nothing only when it was of the last share. -/
theorem Chain.Exitable.next (exitable : c.Exitable k v (i.exitShares + rest)) (exits : i.exits k) :
    ∃ v', (c.next i).Exitable k v' rest := by
  have covered := exitable.covered
  cases accepted : c.accepts i with
  | false =>
    rw [Chain.next_of_refused accepted]
    exact ⟨v, { exitable with covered := by omega }⟩
  | true =>
    have exit := Step.exit (.of_accepts accepted) exits exitable.vault exitable.addressed
    have undeployed := exitable.undeployed
    refine ⟨_, exit.vault, ⟨exitable.addressed.key, exitable.addressed.shareMint⟩, undeployed, ?_, ?_⟩
    · by_cases part : i.exitShares < c.bank.supply v.shareMint
      · have less := assetsForRedeem_lt (Chain.redeemQuote_eq_ok.mp exit.quoted).2 part
        simp only
        omega
      · refine Or.inr ?_
        simp only [exit.burned]
        omega
    · simp only [exit.burned]
      omega

theorem exits_always_payable (exitable : c.Exitable k v (script.map Instruction.exitShares).sum)
    (every : ∀ i ∈ script, i.exits k) {first later : List Instruction} (split : script = first ++ i :: later) :
    FailsWith (·.unpayable = false) ((c.runAll first).process i) := by
  induction first generalizing c v script with
  | nil =>
    subst split
    rw [List.nil_append, List.map_cons, List.sum_cons] at exitable
    exact exitable.fails (every i List.mem_cons_self) (Nat.le_add_right _ _)
  | cons j first ih =>
    subst split
    rw [List.cons_append, List.map_cons, List.sum_cons] at exitable
    obtain ⟨v', next⟩ := exitable.next (every j List.mem_cons_self)
    exact ih next (fun i member => every i (List.mem_cons_of_mem _ member)) rfl

end Exitable

/-- How the holders of the vault at `k` can leave it. -/
structure Chain.ExitsFairly (c : Chain) (k : Pubkey) (v : VaultState) : Prop where
  payable : v.deployedAum = 0 → 0 < v.localAum → ∀ script : List Instruction, (∀ i ∈ script, i.exits k) →
    (script.map Instruction.exitShares).sum ≤ c.bank.supply v.shareMint →
      (∀ first i later, script = first ++ i :: later →
        (c.runAll first).refusal i ≠ some (.vault .notEnoughLiquidity) ∧
          (c.runAll first).refusal i ≠ some (.vault .sharePriceUndefined)) ∧
      ((c.events script).map fun event => event.1.gross k event.2).sum ≤ v.localAum
  quoted : ∀ history t i t' quote, Run Step c history t → (∀ event ∈ history, event.2.exits k) → Step t i t' →
    i.exits k → c.redeemQuote v i.exitShares = .ok quote →
      quote ≤ t.gross k i ∧ t.gross k i ≤ quote + history.length ∧
        ∃ w w', t.vaults.lookup k = some w ∧ t'.vaults.lookup k = some w' ∧ w'.localAum + t.gross k i = w.localAum
  reordered : ∀ history history' t t', Run Step c history t → Run Step c history' t' →
    (∀ event ∈ history, event.2.exits k) → (history.map Prod.snd).Perm (history'.map Prod.snd) →
      (history.map fun event => event.1.gross k event.2).sum ≤
          (history'.map fun event => event.1.gross k event.2).sum + history.length ∧
        ∀ event ∈ history, ∀ event' ∈ history', event.2 = event'.2 →
          event.1.gross k event.2 ≤ event'.1.gross k event'.2 + history.length

section Orders
variable {c t t' : Chain} {i : Instruction} {k : Pubkey} {v : VaultState} {history history' : List (Chain × Instruction)}

/-- A redemption after others pays what its shares were worth before them, and at most a unit more for each. -/
theorem exit_after (run : Run Step c history t) (vault : c.vaults.lookup k = some v) (addressed : v.Addressed k)
    (every : ∀ event ∈ history, event.2.exits k) (taken : Step t i t') (exits : i.exits k) :
    ⌊(i.exitShares : ℚ) * c.sharePrice v⌋₊ ≤ t.gross k i ∧
      t.gross k i ≤ ⌊(i.exitShares : ℚ) * c.sharePrice v⌋₊ + history.length := by
  obtain ⟨v', atMiddle, exited⟩ := exits_run run vault addressed every
  have exit := taken.exit exits atMiddle (exited.traded.addressed addressed)
  have covered := exit.covered
  rw [exited.traded.terms.2.1] at covered
  rw [Chain.redeemQuote_floor exit.quoted]
  exact exited.floor_le covered

/-- Two orders of the same redemptions take shares from the vault for the same claim. -/
theorem exits_reordered (run : Run Step c history t) (run' : Run Step c history' t')
    (vault : c.vaults.lookup k = some v) (addressed : v.Addressed k) (every : ∀ event ∈ history, event.2.exits k)
    (every' : ∀ event ∈ history', event.2.exits k) (same : (history.map Prod.snd).Perm (history'.map Prod.snd)) :
    (history.map fun event => event.1.gross k event.2).sum ≤
      (history'.map fun event => event.1.gross k event.2).sum + history'.length := by
  obtain ⟨_, _, exited⟩ := exits_run run vault addressed every
  obtain ⟨_, _, exited'⟩ := exits_run run' vault addressed every'
  have shares : (history.map fun event => event.2.exitShares).sum =
      (history'.map fun event => event.2.exitShares).sum := by
    have summed := (same.map Instruction.exitShares).sum_eq
    rwa [List.map_map, List.map_map] at summed
  have most := exited.retired.amount_le (Nat.cast_nonneg _)
  have least := exited'.retired.rounded
  rw [← shares] at least
  have total := most.trans least
  rw [← Nat.cast_add, Nat.cast_le] at total
  exact total

theorem exits_each_reordered (run : Run Step c history t) (run' : Run Step c history' t')
    (vault : c.vaults.lookup k = some v) (addressed : v.Addressed k) (every : ∀ event ∈ history, event.2.exits k)
    (every' : ∀ event ∈ history', event.2.exits k) {event event' : Chain × Instruction} (member : event ∈ history)
    (member' : event' ∈ history') (same : event.2 = event'.2) :
    event.1.gross k event.2 ≤ event'.1.gross k event'.2 + history.length := by
  obtain ⟨earlier, _, within, before, taken⟩ := run.at_event member
  obtain ⟨earlier', _, within', before', taken'⟩ := run'.at_event member'
  have most := (exit_after before vault addressed (fun e listed => every e (within.mem (.tail _ listed))) taken
    (every event member)).2
  have least := (exit_after before' vault addressed (fun e listed => every' e (within'.mem (.tail _ listed))) taken'
    (every' event' member')).1
  have shorter : earlier.length < history.length := within.length_le
  rw [← same] at least ⊢
  omega

end Orders

/-- While everything is in the reserve no redemption of outstanding shares finds the vault unable to pay, whatever
the order and the split. From any state a redemption after others is worth what it was, within a unit for each of
them, so that no order of exits is worth more than a unit an exit. The gross amounts are those that leave the
reserve (`Step.exit_flow`). -/
theorem exits_in_any_order {c : Chain} {k : Pubkey} {v : VaultState} (vault : c.vaults.lookup k = some v)
    (addressed : v.Addressed k) : c.ExitsFairly k v := by
  constructor
  · intro undeployed held script every covered
    have exitable : c.Exitable k v (script.map Instruction.exitShares).sum :=
      ⟨vault, addressed, undeployed, Or.inl held, covered⟩
    constructor
    · intro first i later split
      have fails := exits_always_payable exitable every split
      constructor
      · intro refused
        cases Chain.refusal_satisfies fails refused
      · intro refused
        cases Chain.refusal_satisfies fails refused
    · obtain ⟨v', _, exited⟩ := exits_run (Chain.runAll_run c script) vault addressed
        fun event member => every event.2 (Chain.events_mem member)
      have paid := exited.paid
      omega
  · intro history t i t' quote run every taken exits quoted
    obtain ⟨least, most⟩ := exit_after run vault addressed every taken exits
    rw [← Chain.redeemQuote_floor quoted] at least most
    obtain ⟨w, atMiddle, exited⟩ := exits_run run vault addressed every
    have exit := taken.exit exits atMiddle (exited.traded.addressed addressed)
    exact ⟨least, most, w, _, atMiddle, exit.vault, Nat.sub_add_cancel exit.liquid⟩
  · intro history history' t t' run run' every same
    have every' : ∀ event ∈ history', event.2.exits k := by
      intro event member
      obtain ⟨event₀, member₀, is⟩ := List.mem_map.mp (same.mem_iff.mpr (List.mem_map_of_mem member))
      exact is ▸ every event₀ member₀
    have length : history.length = history'.length := by
      have lengths := same.length_eq
      rwa [List.length_map, List.length_map] at lengths
    constructor
    · rw [length]
      exact exits_reordered run run' vault addressed every every' same
    · intro event member event' member'
      exact exits_each_reordered run run' vault addressed every every' member member'

open Sample in
theorem opened_exits_fairly : opened.ExitsFairly vault vaultOpened :=
  exits_in_any_order opened_vault (Reachable.vault_addressed (Chain.runAll_reachable _ _) opened_vault)

end Upshift
