import Mathlib.Algebra.Order.Floor.Semifield
import Mathlib.Data.Nat.Cast.Order.Field
import Mathlib.Data.Rat.Floor
import Upshift.Lib.OffsetPrice
import Upshift.Vault.Soundness

namespace Upshift
open Guard

/-- The price of a share in deposit tokens: the lower of `(T+o)/(S+o)` and `T/S`. -/
def sharePrice (offset supply total : Nat) : ℚ := OffsetPrice.price (offset : ℚ) supply total

def Book.price (B : Book) : ℚ := sharePrice B.offset B.supply B.total

section Quotes
variable {supply total amount shares assets offset : Nat}

theorem VaultState.sharesForDeposit_value
    (quoted : VaultState.sharesForDepositWithOffset supply total amount offset = .ok shares) :
    (0 < total ∨ supply = 0) ∧ shares = if total = 0 then amount * (supply + offset) / (total + offset)
      else max (amount * (supply + offset) / (total + offset)) (amount * supply / total) := by
  simp only [VaultState.sharesForDepositWithOffset, bind_eq_ok, require_eq_ok, okOr_eq_ok, checkedAdd_eq_some,
    checkedMul_eq_some, checkedDiv_eq_some, exists_const] at quoted
  obtain ⟨defined, _, ⟨_, rfl⟩, _, ⟨_, rfl⟩, _, ⟨_, rfl⟩, _, ⟨_, rfl⟩, taken⟩ := quoted
  refine ⟨defined, ?_⟩
  split at taken
  · rename_i empty
    simp only [bind_eq_ok, okOr_eq_ok, tryFrom_eq_some, pure_eq_ok] at taken
    obtain ⟨_, rfl, _, rfl⟩ := taken
    rw [if_pos empty]
  · rename_i some
    simp only [bind_eq_ok, okOr_eq_ok, checkedMul_eq_some, checkedDiv_eq_some, tryFrom_eq_some, pure_eq_ok] at taken
    obtain ⟨_, ⟨_, rfl⟩, _, ⟨_, rfl⟩, _, rfl, _, rfl⟩ := taken
    rw [if_neg some]

theorem VaultState.assetsForRedeem_value
    (quoted : VaultState.assetsForRedeemWithOffset supply total shares offset = .ok assets) :
    (0 < total ∨ supply = 0) ∧ assets = if supply = 0 then shares * (total + offset) / (supply + offset)
      else min (shares * (total + offset) / (supply + offset)) (shares * total / supply) := by
  simp only [VaultState.assetsForRedeemWithOffset, bind_eq_ok, require_eq_ok, okOr_eq_ok, checkedAdd_eq_some,
    checkedMul_eq_some, checkedDiv_eq_some, exists_const] at quoted
  obtain ⟨defined, _, ⟨_, rfl⟩, _, ⟨_, rfl⟩, _, ⟨_, rfl⟩, _, ⟨_, rfl⟩, taken⟩ := quoted
  refine ⟨defined, ?_⟩
  split at taken
  · rename_i empty
    simp only [bind_eq_ok, okOr_eq_ok, tryFrom_eq_some, pure_eq_ok] at taken
    obtain ⟨_, rfl, _, rfl⟩ := taken
    rw [if_pos empty]
  · rename_i some
    simp only [bind_eq_ok, okOr_eq_ok, checkedMul_eq_some, checkedDiv_eq_some, tryFrom_eq_some, pure_eq_ok] at taken
    obtain ⟨_, ⟨_, rfl⟩, _, ⟨_, rfl⟩, _, rfl, _, rfl⟩ := taken
    rw [if_neg some]

/-- Rounding down before or after the multiplication is the same for the code and for the price. -/
theorem floor_share (amount part whole : Nat) :
    amount * part / whole = ⌊(amount : ℚ) * ((part : ℚ) / (whole : ℚ))⌋₊ := by
  have floor : ⌊((amount * part : Nat) : ℚ) / (whole : ℚ)⌋₊ = amount * part / whole := Nat.floor_div_eq_div _ _
  rw [← floor, Nat.cast_mul, mul_div_assoc]

/-- A part of an amount, rounded down, costs at most the amount at any price that the part pays for. -/
theorem share_mul_price_le {amount part whole : Nat} {price : ℚ} (some : 0 < whole) (floor : 0 ≤ price)
    (paid : price * part ≤ whole) : ((amount * part / whole : Nat) : ℚ) * price ≤ amount := by
  have held : (0 : ℚ) < whole := Nat.cast_pos.mpr some
  have rounded : ((amount * part / whole : Nat) : ℚ) ≤ ((amount * part : Nat) : ℚ) / whole := Nat.cast_div_le
  calc ((amount * part / whole : Nat) : ℚ) * price ≤ ((amount * part : Nat) : ℚ) / whole * price :=
        mul_le_mul_of_nonneg_right rounded floor
    _ = amount / whole * (price * part) := by rw [Nat.cast_mul]; ring
    _ ≤ amount / whole * whole := mul_le_mul_of_nonneg_left paid (div_nonneg (Nat.cast_nonneg _) held.le)
    _ = amount := div_mul_cancel₀ _ held.ne'

/-- Deposits are priced at no less than the share price. -/
theorem sharesForDeposit_fair (positive : 0 < offset)
    (quoted : VaultState.sharesForDepositWithOffset supply total amount offset = .ok shares) :
    (shares : ℚ) * sharePrice offset supply total ≤ amount := by
  have shift : (0 : ℚ) < offset := Nat.cast_pos.mpr positive
  have floor := OffsetPrice.price_nonneg shift (Nat.cast_nonneg supply) (Nat.cast_nonneg total)
  obtain ⟨virtual, proRata⟩ := OffsetPrice.price_claims shift (Nat.cast_nonneg supply) (Nat.cast_nonneg total)
  rw [← Nat.cast_add, ← Nat.cast_add] at virtual
  have offsets := @share_mul_price_le amount _ _ _ (Nat.add_pos_right total positive) floor virtual
  obtain ⟨_, rfl⟩ := VaultState.sharesForDeposit_value quoted
  split
  · exact offsets
  · rename_i some
    have ratio := @share_mul_price_le amount _ _ _ (Nat.pos_of_ne_zero some) floor proRata
    rcases max_choice (amount * (supply + offset) / (total + offset)) (amount * supply / total) with is | is
    · rw [is]
      exact offsets
    · rw [is]
      exact ratio

/-- The smaller of the two redemption terms is the shares at the share price, rounded down. -/
theorem redeem_floor (supply total shares offset : Nat) :
    (if supply = 0 then shares * (total + offset) / (supply + offset)
      else min (shares * (total + offset) / (supply + offset)) (shares * total / supply)) =
      ⌊(shares : ℚ) * sharePrice offset supply total⌋₊ := by
  unfold sharePrice OffsetPrice.price
  by_cases empty : supply = 0
  · subst empty
    rw [if_pos rfl, if_pos Nat.cast_zero, floor_share, zero_add, Nat.cast_add]
  · rw [if_neg empty, if_neg (Nat.cast_ne_zero.mpr empty), floor_share, floor_share,
      mul_min_of_nonneg _ _ (Nat.cast_nonneg shares), Nat.floor_mono.map_min, Nat.cast_add, Nat.cast_add]

/-- A redemption quote is the price of the shares, rounded down. -/
theorem assetsForRedeem_floor
    (quoted : VaultState.assetsForRedeemWithOffset supply total shares offset = .ok assets) :
    assets = ⌊(shares : ℚ) * sharePrice offset supply total⌋₊ :=
  (VaultState.assetsForRedeem_value quoted).2.trans (redeem_floor supply total shares offset)

/-- Redemptions are priced at no more than the share price. -/
theorem assetsForRedeem_fair (positive : 0 < offset)
    (quoted : VaultState.assetsForRedeemWithOffset supply total shares offset = .ok assets) :
    (assets : ℚ) ≤ shares * sharePrice offset supply total := by
  have floor := OffsetPrice.price_nonneg (Nat.cast_pos.mpr positive : (0 : ℚ) < offset) (Nat.cast_nonneg supply)
    (Nat.cast_nonneg total)
  rw [assetsForRedeem_floor quoted]
  exact Nat.floor_le (mul_nonneg (Nat.cast_nonneg shares) floor)

/-- Whatever the offset, a part of the shares is quoted less than everything. -/
theorem assetsForRedeem_lt
    (quoted : VaultState.assetsForRedeemWithOffset supply total shares offset = .ok assets) (part : shares < supply) :
    assets < total := by
  obtain ⟨defined, rfl⟩ := VaultState.assetsForRedeem_value quoted
  have outstanding : 0 < supply := Nat.zero_lt_of_lt part
  have held : 0 < total := by omega
  rw [if_neg outstanding.ne']
  have share : shares * total < supply * total := Nat.mul_lt_mul_of_pos_right part held
  exact lt_of_le_of_lt (min_le_right _ _) ((Nat.div_lt_iff_lt_mul outstanding).mpr (Nat.mul_comm supply total ▸ share))

end Quotes

theorem VaultState.resolvedShareOffset_pos (v : VaultState) : 0 < v.resolvedShareOffset := by
  unfold VaultState.resolvedShareOffset
  split
  · decide
  · rename_i offset some
    exact Nat.pos_of_ne_zero fun none => some none

theorem Book.price_eq_mono {B B' : Book} (positive : 0 < B.offset) (offset : B'.offset = B.offset)
    (fewer : B'.supply ≤ B.supply) (more : B.total ≤ B'.total) : B.price ≤ B'.price := by
  unfold Book.price sharePrice
  rw [offset]
  exact OffsetPrice.price_mono (Nat.cast_pos.mpr positive) (Nat.cast_nonneg _) (Nat.cast_nonneg _)
    (Nat.cast_le.mpr fewer) (Nat.cast_le.mpr more)

/-- No action but a report below the recorded value lowers the price. -/
theorem Book.Step.price_le {B B' : Book} {action : BookAction} (step : B.Step action B') (positive : 0 < B.offset)
    (unmarked : ∀ newAum, action = .report newAum → B.deployedAum ≤ newAum) : B.price ≤ B'.price := by
  have shift : (0 : ℚ) < B.offset := Nat.cast_pos.mpr positive
  cases step with
  | drift burned => exact Book.price_eq_mono positive rfl burned le_rfl
  | @deposit amount shares _ priced =>
    have fair := sharesForDeposit_fair positive priced
    have held : (Book.total { B with
        supply := B.supply + shares, localAum := B.localAum + amount, reserve := B.reserve + amount }) =
        B.total + amount := Nat.add_right_comm _ _ _
    unfold Book.price sharePrice
    rw [held, Nat.cast_add, Nat.cast_add]
    exact OffsetPrice.price_le_issue shift (Nat.cast_nonneg _) (Nat.cast_nonneg _) (Nat.cast_nonneg _)
      (Nat.cast_nonneg _) fair
  | @redeem shares assets returned _ _ priced within liquid =>
    have fair := assetsForRedeem_fair positive priced
    have kept : assets ≤ B.total := Nat.le_trans liquid (Nat.le_add_right _ _)
    have held : (Book.total { B with
        supply := B.supply - shares, localAum := B.localAum - assets,
        reserve := B.reserve - (assets - returned) }) = B.total - assets := Nat.sub_add_comm liquid |>.symm
    unfold Book.price sharePrice
    rw [held, Nat.cast_sub kept, Nat.cast_sub within]
    exact OffsetPrice.price_le_retire shift (Nat.cast_nonneg _) (Nat.cast_nonneg _) (Nat.cast_le.mpr within)
      (Nat.cast_le.mpr kept) fair
  | withdraw =>
    refine Book.price_eq_mono positive rfl le_rfl ?_
    simp only [Book.total]
    omega
  | restore =>
    refine Book.price_eq_mono positive rfl le_rfl ?_
    simp only [Book.total]
    omega
  | report =>
    refine Book.price_eq_mono positive rfl le_rfl ?_
    exact Nat.add_le_add_left (unmarked _ rfl) _

section Chain
variable {c c' : Chain} {i : Instruction} {k : Pubkey} {v v' : VaultState}

/-- The price of a vault's shares at one moment. -/
def Chain.sharePrice (c : Chain) (v : VaultState) : ℚ :=
  Upshift.sharePrice v.resolvedShareOffset (c.bank.supply v.shareMint) (v.localAum + v.deployedAum)

/-- What the vault would quote now for redeeming some shares. -/
def Chain.redeemQuote (c : Chain) (v : VaultState) (shares : Nat) : Result Nat := do
  let totalAssets ← v.totalAssets
  v.assetsForRedeem (c.bank.supply v.shareMint) totalAssets shares

theorem Chain.redeemQuote_eq_ok {shares assets : Nat} :
    c.redeemQuote v shares = .ok assets ↔ v.localAum + v.deployedAum ≤ u64Max ∧
      v.assetsForRedeem (c.bank.supply v.shareMint) (v.localAum + v.deployedAum) shares = .ok assets := by
  simp only [Chain.redeemQuote, bind_eq_ok, VaultState.totalAssets_eq_ok]
  constructor
  · rintro ⟨_, ⟨fits, rfl⟩, quoted⟩
    exact ⟨fits, quoted⟩
  · rintro ⟨fits, quoted⟩
    exact ⟨_, ⟨fits, rfl⟩, quoted⟩

theorem Chain.redeemQuote_floor {shares assets : Nat} (quoted : c.redeemQuote v shares = .ok assets) :
    assets = ⌊(shares : ℚ) * c.sharePrice v⌋₊ :=
  assetsForRedeem_floor (Chain.redeemQuote_eq_ok.mp quoted).2

theorem Chain.redeemQuote_mono {shares assets assets' : Nat} (risen : c.sharePrice v ≤ c'.sharePrice v')
    (quoted : c.redeemQuote v shares = .ok assets) (quoted' : c'.redeemQuote v' shares = .ok assets') :
    assets ≤ assets' := by
  rw [Chain.redeemQuote_floor quoted, Chain.redeemQuote_floor quoted']
  exact Nat.floor_mono (mul_le_mul_of_nonneg_left risen (Nat.cast_nonneg shares))

/-- Only a report by the operator is a report in the book. -/
theorem Instruction.action_report {newAum : Nat} (reports : i.action c k = .report newAum) :
    ∃ a n, i = .vault (.operatorUpdateAum a n) ∧ a.vaultState = k ∧ n.toNat = newAum := by
  unfold Instruction.action at reports
  split at reports
  all_goals try split at reports
  all_goals try cases reports
  rename_i a n here
  exact ⟨a, n, rfl, here, rfl⟩

theorem Instruction.action_withdraw {amount : Nat} (withdraws : i.action c k = .withdraw amount) :
    ∃ a n, i = .vault (.operatorWithdraw a n) ∧ a.vaultState = k := by
  unfold Instruction.action at withdraws
  split at withdraws
  all_goals try split at withdraws
  all_goals try cases withdraws
  rename_i a n here
  exact ⟨a, n, rfl, here⟩

theorem Step.price_le (reach : Reachable c) (taken : Step c i c') (vault : c.vaults.lookup k = some v)
    (vault' : c'.vaults.lookup k = some v')
    (unmarked : ∀ a newAum, i = .vault (.operatorUpdateAum a newAum) → a.vaultState = k →
      v.deployedAum ≤ newAum.toNat) : c.sharePrice v ≤ c'.sharePrice v' := by
  have sound := reach.vaults_sound k v vault
  have step := taken.book reach.bank_sound sound.formed sound.backed vault vault'
  refine step.price_le v.resolvedShareOffset_pos fun newAum reports => ?_
  obtain ⟨a, n, label, here, rfl⟩ := Instruction.action_report reports
  exact unmarked a n label here

/-- The share price never falls in a step without a mark-down, and neither does any quote. -/
theorem Reachable.share_price_never_falls (reach : Reachable c) (taken : Step c i c')
    (vault : c.vaults.lookup k = some v) (vault' : c'.vaults.lookup k = some v')
    (unmarked : ∀ a newAum, i = .vault (.operatorUpdateAum a newAum) → a.vaultState = k →
      v.deployedAum ≤ newAum.toNat) :
    c.sharePrice v ≤ c'.sharePrice v' ∧ ∀ shares assets assets', c.redeemQuote v shares = .ok assets →
      c'.redeemQuote v' shares = .ok assets' → assets ≤ assets' := by
  have risen := taken.price_le reach vault vault' unmarked
  exact ⟨risen, fun _ _ _ quoted quoted' => Chain.redeemQuote_mono risen quoted quoted'⟩

end Chain

namespace Sample

def mint : Pubkey := .key 1
def admin : Pubkey := .key 2
def user : Pubkey := .key 3
def operator : Pubkey := .key 4
def vault : Pubkey := .vaultState mint 0
def shareMint : Pubkey := .shareMint mint 0
def reserve : Pubkey := .vaultToken mint 0
def wallet (owner : Pubkey) : Pubkey := .associatedToken owner mint
def shares (owner : Pubkey) : Pubkey := .associatedToken owner shareMint
def deposit : Deposit := ⟨vault, reserve, wallet user, shares user, shareMint, mint, user⟩

/-- A vault of offset 1000 with a single depositor. -/
def opening : List Instruction :=
  [.token (.initializeMint mint .token admin 6 none []),
    .token (.createAssociatedAccount user mint),
    .token (.createAssociatedAccount operator mint),
    .token (.createAssociatedAccount admin mint),
    .token (.mintTo mint (wallet user) admin 1000000),
    .vault (.initializeConfig admin admin),
    .vault (.initializeVault ⟨admin, mint, vault, shareMint, reserve⟩ admin operator admin 0 1000),
    .token (.createAssociatedAccount user shareMint),
    .vault (.deposit deposit 200000)]

def opened : Chain := (Chain.genesis (some admin)).runAll opening

def vaultOpened : VaultState :=
  { VaultState.init operator admin shareMint mint admin 0 0 1000 with localAum := 200000 }

theorem opened_vault : opened.vaults.lookup vault = some vaultOpened := by decide +kernel

/-- A vault of the default offset beside the opened one. -/
def founding : List Instruction :=
  opening ++ [.vault (.initializeVault ⟨admin, mint, .vaultState mint 7, .shareMint mint 7, .vaultToken mint 7⟩ admin
    operator admin 7 1000000)]

/-- The runs also start with vaults that never stored their offset. -/
example : ∃ c v, Reachable c ∧ c.vaults.lookup (.vaultState mint 7) = some v ∧ v.shareOffset = 0 := by
  have vault : ((Chain.genesis (some admin)).runAll founding).vaults.lookup (.vaultState mint 7) =
      some (.init operator admin (.shareMint mint 7) mint admin 0 7 1000000) := by decide +kernel
  have first := Chain.Initial.unstored ⟨_, _, ⟨some admin, rfl⟩, Chain.runAll_run _ founding⟩ vault rfl
  exact ⟨_, _, ⟨_, [], first, .start⟩, Finmap.lookup_insert _, rfl⟩

end Sample

open Sample in
theorem share_price_after_deposit :
    opened.sharePrice vaultOpened ≤
        (opened.next (.vault (.deposit deposit 50000))).sharePrice { vaultOpened with localAum := 250000 } ∧
      ∀ shares assets assets', opened.redeemQuote vaultOpened shares = .ok assets →
        (opened.next (.vault (.deposit deposit 50000))).redeemQuote { vaultOpened with localAum := 250000 } shares =
          .ok assets' → assets ≤ assets' :=
  Reachable.share_price_never_falls (Chain.runAll_reachable _ _) (.of_accepts (by decide +kernel)) opened_vault
    (by decide +kernel) fun _ _ label => by cases label

end Upshift
