import Upshift.Vault.Coalition
import Upshift.Vault.Exits

namespace Upshift
open Guard KeyedStore History OffsetPrice

section Redemptions
variable {c c' t : Chain} {k : Pubkey} {v v' : VaultState} {shares gross count quote : Nat}
  {history : List (Chain × Instruction)}

/-- What a redemption pays is what the vault keeps of it, rounded down. -/
theorem Chain.netQuote_floor (bounded : v.withdrawalFee < 100000) (quoted : c.netQuote v shares = .ok quote) :
    ∃ assets, c.redeemQuote v shares = .ok assets ∧ quote = assets * (1000000 - v.withdrawalFee) / 1000000 := by
  obtain ⟨assets, priced, fees, charged, _, rfl⟩ := Chain.netQuote_eq_ok.mp quoted
  refine ⟨assets, priced, ?_⟩
  rw [Redeem.fees_eq_ok charged, Redeem.sub_feeOf bounded]

theorem Chain.Exit.netQuote (exit : c.Exit c' k v shares gross) (bounded : v.withdrawalFee < 100000) :
    c.netQuote v shares = .ok (gross * (1000000 - v.withdrawalFee) / 1000000) := by
  obtain ⟨fees, charged, afforded⟩ := exit.net
  refine Chain.netQuote_eq_ok.mpr ⟨gross, exit.quoted, fees, charged, afforded, ?_⟩
  rw [Redeem.fees_eq_ok charged, Redeem.sub_feeOf bounded]

/-- Every redemption of a run is charged at the vault's one rate. -/
theorem exit_net (run : Run Step c history t) (vault : c.vaults.lookup k = some v) (addressed : v.Addressed k)
    (every : ∀ event ∈ history, event.2.exits k) (bounded : v.withdrawalFee < 100000) {event : Chain × Instruction}
    (member : event ∈ history) :
    event.1.net k event.2 = event.1.gross k event.2 * (1000000 - v.withdrawalFee) / 1000000 := by
  obtain ⟨earlier, _, within, before, taken⟩ := run.at_event member
  obtain ⟨w, atMiddle, exited⟩ := exits_run before vault addressed fun e listed => every e (within.mem (.tail _ listed))
  have exit := taken.exit (every event member) atMiddle (exited.traded.addressed addressed)
  have rate := exited.traded.terms.2.2
  have net := exit.netQuote (rate ▸ bounded)
  rw [rate] at net
  rw [Chain.net, Chain.quoted_eq atMiddle net]

theorem redeem_splitting (run : Run Step c history t) (vault : c.vaults.lookup k = some v)
    (addressed : v.Addressed k) (every : ∀ event ∈ history, event.2.exits k) (bounded : v.withdrawalFee < 100000)
    (whole : c.netQuote v (history.map fun event => event.2.exitShares).sum = .ok quote) :
    (history.map fun event => event.1.net k event.2).sum ≤ quote := by
  obtain ⟨assets, priced, rfl⟩ := Chain.netQuote_floor bounded whole
  obtain ⟨v', _, exited⟩ := exits_run run vault addressed every
  -- Together the parts are worth no more than the shares were at the start.
  have together : (history.map fun event => event.1.gross k event.2).sum ≤ assets := by
    rw [Chain.redeemQuote_floor priced]
    exact Nat.le_floor (exited.retired.amount_le (Nat.cast_nonneg _))
  have nets : (history.map fun event => event.1.net k event.2) =
      (history.map fun event => event.1.gross k event.2).map (· * (1000000 - v.withdrawalFee) / 1000000) := by
    rw [List.map_map]
    exact List.map_congr_left fun event member => exit_net run vault addressed every bounded member
  rw [nets]
  exact (Rounding.sum_div_le _).trans (Nat.div_le_div_right (Nat.mul_le_mul_right _ together))

end Redemptions

/-- From a vault at one moment to the same vault after some deposits of `amount` that minted `minted`. -/
structure Chain.Entered (c t : Chain) (v v' : VaultState) (amount minted : Nat) : Prop where
  traded : v.Traded v'
  price_le : c.sharePrice v ≤ t.sharePrice v'
  fair : (minted : ℚ) * c.sharePrice v ≤ amount

section Deposits
variable {c c' t u : Chain} {k : Pubkey} {v v' v'' : VaultState} {amount minted amount' minted' quote : Nat}
  {history : List (Chain × Instruction)}

theorem Chain.Entered.refl (c : Chain) (v : VaultState) : c.Entered c v v 0 0 := by
  refine ⟨rfl, le_rfl, ?_⟩
  rw [Nat.cast_zero, zero_mul]

theorem Chain.Entered.trans (first : c.Entered t v v' amount minted) (second : t.Entered u v' v'' amount' minted') :
    c.Entered u v v'' (amount + amount') (minted + minted') := by
  refine ⟨first.traded.trans second.traded, first.price_le.trans second.price_le, ?_⟩
  have dearer := mul_le_mul_of_nonneg_left first.price_le (Nat.cast_nonneg minted' : (0 : ℚ) ≤ minted')
  have fair := first.fair
  have fair' := second.fair
  rw [Nat.cast_add, Nat.cast_add, add_mul]
  linarith

theorem Chain.Entry.entered (entry : c.Entry c' k v amount minted) :
    c.Entered c' v { v with localAum := v.localAum + amount } amount minted := by
  have fair := sharesForDeposit_fair v.resolvedShareOffset_pos (Chain.depositQuote_eq_ok.mp entry.quoted).2
  refine ⟨rfl, ?_, fair⟩
  have held : v.localAum + amount + v.deployedAum = v.localAum + v.deployedAum + amount := Nat.add_right_comm _ _ _
  have risen := price_le_issue (Nat.cast_pos.mpr v.resolvedShareOffset_pos) (Nat.cast_nonneg _) (Nat.cast_nonneg _)
    (Nat.cast_nonneg _) (Nat.cast_nonneg _) fair
  rw [← Nat.cast_add, ← Nat.cast_add, ← entry.minted, ← held] at risen
  exact risen

theorem enters_run (run : Run Step c history t) (vault : c.vaults.lookup k = some v) (addressed : v.Addressed k)
    (every : ∀ event ∈ history, event.2.enters k) : ∃ v', t.vaults.lookup k = some v' ∧
      c.Entered t v v' (history.map fun event => event.2.enterAmount).sum
        (history.map fun event => event.1.minted k event.2).sum := by
  induction run with
  | start => exact ⟨v, vault, .refl c v⟩
  | @next history t i u previous taken ih =>
    obtain ⟨v', atMiddle, before⟩ := ih fun event member => every event (List.mem_cons_of_mem _ member)
    have entry := taken.entry (every (t, i) List.mem_cons_self) atMiddle (before.traded.addressed addressed)
    refine ⟨_, entry.vault, ?_⟩
    rw [List.map_cons, List.map_cons, List.sum_cons, List.sum_cons, Nat.add_comm i.enterAmount,
      Nat.add_comm (t.minted k i)]
    exact before.trans entry.entered

theorem deposit_splitting (run : Run Step c history t) (vault : c.vaults.lookup k = some v)
    (addressed : v.Addressed k) (every : ∀ event ∈ history, event.2.enters k)
    (whole : c.depositQuote v (history.map fun event => event.2.enterAmount).sum = .ok quote) :
    (history.map fun event => event.1.minted k event.2).sum ≤ quote := by
  obtain ⟨_, priced⟩ := Chain.depositQuote_eq_ok.mp whole
  obtain ⟨defined, rfl⟩ := VaultState.sharesForDeposit_value priced
  obtain ⟨v', _, entered⟩ := enters_run run vault addressed every
  rw [deposit_floor defined v.resolvedShareOffset_pos]
  refine Nat.le_floor ((le_div_iff₀ ?_).mpr entered.fair)
  refine price_pos (Nat.cast_pos.mpr v.resolvedShareOffset_pos) (Nat.cast_nonneg _) (Nat.cast_nonneg _) ?_
  exact defined.imp Nat.cast_pos.mpr Nat.cast_eq_zero.mpr

end Deposits

/-- Redeeming in parts pays no more than redeeming at once, whatever the fee, and depositing in parts mints no
more than depositing at once. What each part pays and mints is what balances and supply move by (`Step.exit_flow`,
`Step.entry_flow`). -/
theorem splitting_never_helps {c t : Chain} {k : Pubkey} {v : VaultState} {history : List (Chain × Instruction)}
    (run : Run Step c history t) (vault : c.vaults.lookup k = some v) (addressed : v.Addressed k) :
    (v.withdrawalFee < 100000 → (∀ event ∈ history, event.2.exits k) →
      ∀ whole, c.netQuote v (history.map fun event => event.2.exitShares).sum = .ok whole →
        (history.map fun event => event.1.net k event.2).sum ≤ whole) ∧
    ((∀ event ∈ history, event.2.enters k) →
      ∀ whole, c.depositQuote v (history.map fun event => event.2.enterAmount).sum = .ok whole →
        (history.map fun event => event.1.minted k event.2).sum ≤ whole) :=
  ⟨fun bounded every _ whole => redeem_splitting run vault addressed every bounded whole,
    fun every _ whole => deposit_splitting run vault addressed every whole⟩

namespace Sample

/-- The vault charges a little more than a hundredth, and its depositor leaves in three parts. -/
def charged : Chain := opened.next (.vault (.setWithdrawalFee ⟨vault, mint, admin⟩ 10001))

def inParts : List Instruction :=
  [.vault (.redeem redeem 50), .vault (.redeem redeem 50), .vault (.redeem redeem 50)]

end Sample

open Sample in
theorem three_parts_pay_less :
    charged.netQuote { vaultOpened with withdrawalFee := 10001 } 150 = .ok 148 ∧
      ((charged.events inParts).map fun event => event.1.net vault event.2).sum ≤ 148 := by
  have whole : charged.netQuote { vaultOpened with withdrawalFee := 10001 } 150 = .ok 148 := by decide +kernel
  have parts := splitting_never_helps (Chain.runAll_run charged inParts)
    (show charged.vaults.lookup vault = some { vaultOpened with withdrawalFee := 10001 } by decide +kernel) ⟨rfl, rfl⟩
  exact ⟨whole, parts.1 (by decide) (by decide +kernel) 148 (by decide +kernel)⟩

end Upshift
