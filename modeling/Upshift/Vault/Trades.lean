import Upshift.Lib.OffsetRuns
import Upshift.Lib.Rounding
import Upshift.Vault.Price

namespace Upshift
open Guard KeyedStore History

/-- The account of a vault and its share mint are where the fields of the account put them. -/
structure VaultState.Addressed (v : VaultState) (k : Pubkey) : Prop where
  key : k = .vaultState v.depositMint v.vaultVersion
  shareMint : v.shareMint = .shareMint v.depositMint v.vaultVersion

/-- The accounts of one vault before and after trades, which only move its recorded reserve. -/
def VaultState.Traded (v v' : VaultState) : Prop := v' = { v with localAum := v'.localAum }

/-- Whether an instruction redeems from the vault at `k` in its caller's name, and how many shares. -/
def Instruction.exits (i : Instruction) (k : Pubkey) : Bool := i.redeems.any fun call => call.1.vaultState = k

def Instruction.exitShares (i : Instruction) : Nat := i.redeems.elim 0 fun call => call.2.1

/-- Whether an instruction deposits into the vault at `k`, and how much. -/
def Instruction.enters (i : Instruction) (k : Pubkey) : Bool := i.deposits.any fun call => call.1.vaultState = k

def Instruction.enterAmount (i : Instruction) : Nat := i.deposits.elim 0 fun call => call.2.1

/-- What a redemption pays after its fee, as the vault would quote it now. -/
def Chain.netQuote (c : Chain) (v : VaultState) (shares : Nat) : Result Nat := do
  let assets ← c.redeemQuote v shares
  let fees ← Redeem.fees assets v.withdrawalFee
  okOr (checkedSub assets fees) (.vault .mathError)

/-- The shares the vault would quote now for a deposit. -/
def Chain.depositQuote (c : Chain) (v : VaultState) (amount : Nat) : Result Nat := do
  let totalAssets ← v.totalAssets
  v.sharesForDeposit (c.bank.supply v.shareMint) totalAssets amount

/-- What the vault at `k` quotes, zero where it quotes nothing. -/
def Chain.quoted (c : Chain) (k : Pubkey) (quote : VaultState → Result Nat) : Nat :=
  (c.vaults.lookup k).elim 0 fun v => (quote v).toOption.getD 0

def Chain.gross (c : Chain) (k : Pubkey) (i : Instruction) : Nat := c.quoted k (c.redeemQuote · i.exitShares)

def Chain.net (c : Chain) (k : Pubkey) (i : Instruction) : Nat := c.quoted k (c.netQuote · i.exitShares)

def Chain.minted (c : Chain) (k : Pubkey) (i : Instruction) : Nat := c.quoted k (c.depositQuote · i.enterAmount)

/-- What is left after the rounded-up fee is the other part of the amount, rounded down. -/
theorem Redeem.sub_feeOf {assets withdrawalFee : Nat} (bounded : withdrawalFee < 100000) :
    assets - Redeem.feeOf assets withdrawalFee = assets * (1000000 - withdrawalFee) / 1000000 :=
  @Rounding.sub_ceil withdrawalFee 1000000 assets (by decide) (by omega)

/-- Every vault that can be reached is one of these. -/
theorem Reachable.vault_addressed {c : Chain} {v : VaultState} {k : Pubkey} (reach : Reachable c)
    (vault : c.vaults.lookup k = some v) : v.Addressed k := by
  have formed := (reach.vaults_sound k v vault).formed
  exact ⟨formed.key, formed.shareMint⟩

theorem VaultState.Addressed.mint_eq {v : VaultState} {k depositMint shareMint : Pubkey} (addressed : v.Addressed k)
    (key : k = .vaultState depositMint v.vaultVersion) (shareMintKey : shareMint = .shareMint depositMint v.vaultVersion) :
    v.shareMint = shareMint := by
  have keys := addressed.key.symm.trans key
  simp only [Pubkey.vaultState.injEq] at keys
  rw [addressed.shareMint, shareMintKey, keys.1]

section Traded
variable {v v' v'' : VaultState} {k : Pubkey}

theorem VaultState.Traded.trans (first : v.Traded v') (second : v'.Traded v'') : v.Traded v'' := by
  unfold VaultState.Traded at *
  rw [first] at second
  exact second

theorem VaultState.Traded.terms (traded : v.Traded v') :
    v'.resolvedShareOffset = v.resolvedShareOffset ∧ v'.shareMint = v.shareMint ∧
      v'.withdrawalFee = v.withdrawalFee := by
  rw [traded]
  exact ⟨rfl, rfl, rfl⟩

theorem VaultState.Traded.addressed (traded : v.Traded v') (addressed : v.Addressed k) : v'.Addressed k := by
  rw [traded]
  exact ⟨addressed.key, addressed.shareMint⟩

end Traded

section Quotes
variable {c : Chain} {k : Pubkey} {v : VaultState} {shares amount quote : Nat}

theorem Chain.quoted_eq {f : VaultState → Result Nat} (vault : c.vaults.lookup k = some v) (ok : f v = .ok quote) :
    c.quoted k f = quote := by
  simp only [Chain.quoted, vault, Option.elim_some, ok, Except.toOption, Option.getD_some]

theorem Chain.netQuote_eq_ok :
    c.netQuote v shares = .ok quote ↔ ∃ assets, c.redeemQuote v shares = .ok assets ∧ ∃ fees,
      Redeem.fees assets v.withdrawalFee = .ok fees ∧ fees ≤ assets ∧ assets - fees = quote := by
  simp only [Chain.netQuote, bind_eq_ok, okOr_eq_ok, checkedSub_eq_some]

theorem Chain.depositQuote_eq_ok :
    c.depositQuote v amount = .ok quote ↔ v.localAum + v.deployedAum ≤ u64Max ∧
      v.sharesForDeposit (c.bank.supply v.shareMint) (v.localAum + v.deployedAum) amount = .ok quote := by
  simp only [Chain.depositQuote, bind_eq_ok, VaultState.totalAssets_eq_ok]
  constructor
  · rintro ⟨_, ⟨fits, rfl⟩, quoted⟩
    exact ⟨fits, quoted⟩
  · rintro ⟨fits, quoted⟩
    exact ⟨_, ⟨fits, rfl⟩, quoted⟩

end Quotes

/-- What a redemption of `shares` for a gross amount does to its vault. -/
structure Chain.Exit (c c' : Chain) (k : Pubkey) (v : VaultState) (shares gross : Nat) : Prop where
  quoted : c.redeemQuote v shares = .ok gross
  net : ∃ fees, Redeem.fees gross v.withdrawalFee = .ok fees ∧ fees ≤ gross
  liquid : gross ≤ v.localAum
  covered : shares ≤ c.bank.supply v.shareMint
  burned : c'.bank.supply v.shareMint = c.bank.supply v.shareMint - shares
  vault : c'.vaults.lookup k = some { v with localAum := v.localAum - gross }

/-- What a deposit that mints `shares` does to its vault. -/
structure Chain.Entry (c c' : Chain) (k : Pubkey) (v : VaultState) (amount shares : Nat) : Prop where
  quoted : c.depositQuote v amount = .ok shares
  positive : 0 < shares
  opening : c.bank.supply v.shareMint = 0 → v.minOpeningSupply ≤ shares
  minted : c'.bank.supply v.shareMint = c.bank.supply v.shareMint + shares
  vault : c'.vaults.lookup k = some { v with localAum := v.localAum + amount }

section Step
variable {c c' : Chain} {i : Instruction} {k : Pubkey} {v : VaultState}

theorem Instruction.exits_eq (exits : i.exits k) : ∃ a minAssetsOut, i.redeems = some (a, i.exitShares, minAssetsOut) ∧
    a.vaultState = k := by
  cases label : i.redeems with
  | none => simp only [Instruction.exits, label, Option.any_none, Bool.false_eq_true] at exits
  | some call =>
    simp only [Instruction.exits, label, Option.any_some] at exits
    refine ⟨call.1, call.2.2, ?_, of_decide_eq_true exits⟩
    simp only [Instruction.exitShares, label, Option.elim_some]

theorem Instruction.enters_eq (enters : i.enters k) : ∃ a minSharesOut, i.deposits = some (a, i.enterAmount, minSharesOut) ∧
    a.vaultState = k := by
  cases label : i.deposits with
  | none => simp only [Instruction.enters, label, Option.any_none, Bool.false_eq_true] at enters
  | some call =>
    simp only [Instruction.enters, label, Option.any_some] at enters
    refine ⟨call.1, call.2.2, ?_, of_decide_eq_true enters⟩
    simp only [Instruction.enterAmount, label, Option.elim_some]

theorem Chain.execute_redeems {a : Redeem} {shares minAssetsOut : Nat}
    (label : i.redeems = some (a, shares, minAssetsOut)) :
    c.execute i = Redeem.handlerChecked c a shares minAssetsOut := by
  obtain ⟨_, rfl, rfl, rfl⟩ | ⟨_, _, rfl, rfl, rfl⟩ := Instruction.redeems_eq_some label
  · rfl
  · rfl

theorem Chain.execute_deposits {a : Deposit} {amount minSharesOut : Nat}
    (label : i.deposits = some (a, amount, minSharesOut)) :
    c.execute i = Deposit.handlerChecked c a amount minSharesOut := by
  obtain ⟨_, rfl, rfl, rfl⟩ | ⟨_, _, rfl, rfl, rfl⟩ := Instruction.deposits_eq_some label
  · rfl
  · rfl

/-- What a redemption pays out is what the vault quotes for its shares. -/
theorem Redeem.Ran.quote {a : Redeem} {shares minAssetsOut assets fees : Nat} {m : Mint} {paid : Bank}
    (ran : Redeem.Ran c a shares minAssetsOut v m assets fees paid) (addressed : v.Addressed a.vaultState) :
    c.redeemQuote v shares = .ok assets := by
  have shareMint := addressed.mint_eq ran.valid.key ran.valid.shareMintKey
  have supply : c.bank.supply v.shareMint = m.supply := by rw [shareMint, Bank.supply_of_lookup ran.valid.shareMint]
  exact Chain.redeemQuote_eq_ok.mpr ⟨ran.total, supply ▸ ran.quoted⟩

theorem Step.exit (taken : Step c i c') (exits : i.exits k) (vault : c.vaults.lookup k = some v)
    (addressed : v.Addressed k) : c.Exit c' k v i.exitShares (c.gross k i) := by
  obtain ⟨a, minAssetsOut, label, rfl⟩ := Instruction.exits_eq exits
  have executed := taken.executed
  rw [Chain.execute_redeems label] at executed
  obtain ⟨v₀, m, assets, fees, paid, ran, rfl⟩ := Redeem.handlerChecked_eq_ok.mp executed
  cases Option.some.inj (vault.symm.trans ran.valid.vault)
  have shareMint := addressed.mint_eq ran.valid.key ran.valid.shareMintKey
  have quoted := ran.quote addressed
  rw [Chain.gross, Chain.quoted_eq vault quoted]
  refine ⟨quoted, ⟨fees, ran.charged, ran.afforded⟩, ran.liquid, ?_, ?_, Finmap.lookup_insert _⟩
  · rw [shareMint]
    exact (Redeem.interactions_covered ran.interactions).2
  · change paid.supply v.shareMint = _
    rw [Redeem.interactions_supply ran.interactions, if_pos shareMint]

/-- What a deposit mints is what the vault quotes for its amount. -/
theorem Deposit.Ran.quote {a : Deposit} {amount minSharesOut shares : Nat} {m : Mint} {paid minted : Bank}
    (ran : Deposit.Ran c a amount minSharesOut v m shares paid minted) (addressed : v.Addressed a.vaultState) :
    c.depositQuote v amount = .ok shares := by
  have shareMint := addressed.mint_eq ran.valid.key ran.valid.shareMintKey
  have supply : c.bank.supply v.shareMint = m.supply := by rw [shareMint, Bank.supply_of_lookup ran.valid.shareMint]
  exact Chain.depositQuote_eq_ok.mpr ⟨ran.total, supply ▸ ran.quoted⟩

theorem Step.entry (taken : Step c i c') (enters : i.enters k) (vault : c.vaults.lookup k = some v)
    (addressed : v.Addressed k) : c.Entry c' k v i.enterAmount (c.minted k i) := by
  obtain ⟨a, minSharesOut, label, rfl⟩ := Instruction.enters_eq enters
  have executed := taken.executed
  rw [Chain.execute_deposits label] at executed
  obtain ⟨v₀, m, shares, paid, minted, ran, rfl⟩ := Deposit.handlerChecked_eq_ok.mp executed
  cases Option.some.inj (vault.symm.trans ran.valid.vault)
  have shareMint := addressed.mint_eq ran.valid.key ran.valid.shareMintKey
  have supply : c.bank.supply v.shareMint = m.supply := by rw [shareMint, Bank.supply_of_lookup ran.valid.shareMint]
  have quoted := ran.quote addressed
  rw [Chain.minted, Chain.quoted_eq vault quoted]
  refine ⟨quoted, ran.some, supply ▸ ran.openingSupply, ?_, Finmap.lookup_insert _⟩
  change minted.supply v.shareMint = _
  rw [Bank.mintTo_supply ran.mints, if_pos shareMint, Bank.transfer_supply ran.pays]

/-- What a redemption is said to take and to pay is what the balances move by, and what its vault records: the gross
amount leaves the reserve, the net one reaches the caller, and the rest the fee account. -/
theorem Step.exit_flow {a : Redeem} {shares minAssetsOut : Nat} (taken : Step c i c')
    (label : i.redeems = some (a, shares, minAssetsOut)) (vault : c.vaults.lookup a.vaultState = some v)
    (addressed : v.Addressed a.vaultState) :
    c'.vaults.lookup a.vaultState = some { v with localAum := v.localAum - c.gross a.vaultState i } ∧
      c.gross a.vaultState i ≤ v.localAum ∧ c'.bank.supply v.shareMint + shares = c.bank.supply v.shareMint ∧
      ∃ fees, c.net a.vaultState i + fees = c.gross a.vaultState i ∧ ∀ account,
        c'.bank.balance account + (if account = a.vaultDepositAta then c.gross a.vaultState i else 0) +
            (if account = a.senderShareAccount then shares else 0) =
          c.bank.balance account + (if account = a.feeRecipientAccount then fees else 0) +
            (if account = a.senderTokenAccount then c.net a.vaultState i else 0) := by
  have exits : i.exits a.vaultState := by
    simp only [Instruction.exits, label, Option.any_some, decide_true]
  have amount : i.exitShares = shares := by simp only [Instruction.exitShares, label, Option.elim_some]
  have exit := taken.exit exits vault addressed
  rw [amount] at exit
  obtain ⟨fees, charged, afforded⟩ := exit.net
  have net : c.net a.vaultState i = c.gross a.vaultState i - fees := by
    refine Chain.quoted_eq vault ?_
    rw [amount]
    exact Chain.netQuote_eq_ok.mpr ⟨_, exit.quoted, fees, charged, afforded, rfl⟩
  have burned := exit.burned
  have covered := exit.covered
  refine ⟨exit.vault, exit.liquid, by omega, fees, by omega, ?_⟩
  have executed := taken.executed
  rw [Chain.execute_redeems label] at executed
  obtain ⟨v₀, m, assets, fees', paid, ran, rfl⟩ := Redeem.handlerChecked_eq_ok.mp executed
  cases Option.some.inj (vault.symm.trans ran.valid.vault)
  cases Except.ok.inj ((ran.quote addressed).symm.trans exit.quoted)
  cases Except.ok.inj (charged.symm.trans ran.charged)
  have flow := Redeem.interactions_flow ran.interactions
  rw [Nat.add_sub_cancel' afforded, ← net] at flow
  exact flow

/-- What a deposit is said to mint is what its caller receives for the amount that reaches the reserve. -/
theorem Step.entry_flow {a : Deposit} {amount minSharesOut : Nat} (taken : Step c i c')
    (label : i.deposits = some (a, amount, minSharesOut)) (vault : c.vaults.lookup a.vaultState = some v)
    (addressed : v.Addressed a.vaultState) :
    c'.vaults.lookup a.vaultState = some { v with localAum := v.localAum + amount } ∧
      c'.bank.supply v.shareMint = c.bank.supply v.shareMint + c.minted a.vaultState i ∧ ∀ account,
        c'.bank.balance account + (if account = a.senderTokenAccount then amount else 0) =
          c.bank.balance account + (if account = a.vaultTokenAta then amount else 0) +
            (if account = a.senderShareAccount then c.minted a.vaultState i else 0) := by
  have enters : i.enters a.vaultState := by
    simp only [Instruction.enters, label, Option.any_some, decide_true]
  have amount' : i.enterAmount = amount := by simp only [Instruction.enterAmount, label, Option.elim_some]
  have entry := taken.entry enters vault addressed
  rw [amount'] at entry
  refine ⟨entry.vault, entry.minted, fun account => ?_⟩
  have executed := taken.executed
  rw [Chain.execute_deposits label] at executed
  obtain ⟨v₀, m, shares, paid, minted, ran, rfl⟩ := Deposit.handlerChecked_eq_ok.mp executed
  cases Option.some.inj (vault.symm.trans ran.valid.vault)
  have issued : shares = c.minted a.vaultState i := Except.ok.inj ((ran.quote addressed).symm.trans entry.quoted)
  have pays := Bank.transfer_flow ran.pays account
  have mints := Bank.mintTo_balance ran.mints account
  change minted.balance account + _ = _
  rw [← issued, mints]
  split
  · omega
  · omega

end Step

end Upshift
