import Upshift.Vault.Price

namespace Upshift
open Guard KeyedStore History

/-- Tokens that reach the reserve of a vault without being booked: a donation, or a fee paid back. -/
def Instruction.topsUp (i : Instruction) (c : Chain) (k : Pubkey) : Bool :=
  (c.vaults.lookup k).any fun v => match i.action c k with
    | .drift => c.bank.balance v.reserve < (c.next i).bank.balance v.reserve
    | .redeem _ feeReturned => feeReturned
    | _ => false

/-- An action that adds nothing to the reserve unbooked keeps the booked amount exact. -/
theorem Book.Step.exact {B B' : Book} {action : BookAction} (step : B.Step action B')
    (exact : B.localAum = B.reserve) (undonated : action = .drift → B'.reserve ≤ B.reserve)
    (unreturned : ∀ shares, action ≠ .redeem shares true) : B'.localAum = B'.reserve := by
  cases step with
  | drift _ donated => exact exact.trans (Nat.le_antisymm donated (undonated rfl))
  | deposit => exact congrArg (· + _) exact
  | @redeem shares assets returned feeReturned _ _ _ _ _ whole =>
    cases feeReturned with
    | true => exact absurd rfl (unreturned shares)
    | false =>
      simp only [whole rfl, Nat.sub_zero, exact]
  | withdraw => exact congrArg (· - _) exact
  | restore => exact congrArg (· + _) exact
  | report => exact exact

section Payment
variable {c : Chain} {a : Redeem} {v : VaultState} {m : Mint} {shares fees finalAmount : Nat} {burned : Bank}

/-- Once the shares are burned, a reserve that holds the gross amount pays the fee and the rest,
whatever the two receiving accounts are. -/
theorem Redeem.Valid.pays (valid : a.Valid c v m) (sound : c.bank.Sound) (derived : a.vaultState.canSign = false)
    (burns : c.bank.burnChecked a.senderShareAccount a.shareMint a.signer shares = .ok burned)
    (covered : fees + finalAmount ≤ c.bank.balance a.vaultDepositAta) :
    ∃ paid, a.interactions c.bank shares fees finalAmount = .ok paid := by
  have afterBurn := Bank.burn_keeps burns
  have held : burned.balance a.vaultDepositAta = c.bank.balance a.vaultDepositAta := by
    rw [Bank.burn_balance burns, if_neg valid.burner.symm]
  obtain ⟨fee, atFee, _, feeMint⟩ := afterBurn.owned valid.feeRecipient
  have soundBurned := sound.burn burns
  obtain ⟨paidFee, paysFee⟩ := soundBurned.pays (afterBurn.owned valid.reserve) ⟨fee, atFee, feeMint⟩ derived
    (show fees ≤ burned.balance a.vaultDepositAta by omega)
  have afterFee := afterBurn.trans (Bank.transfer_keeps paysFee)
  have left : finalAmount ≤ paidFee.balance a.vaultDepositAta := by
    rw [Bank.transfer_balance paysFee]
    by_cases aliased : a.vaultDepositAta = a.feeRecipientAccount
    · rw [if_pos aliased]
      omega
    · rw [if_neg aliased, if_neg aliased, if_pos rfl]
      omega
  obtain ⟨sender, atSender, _, senderMint⟩ := afterFee.owned valid.senderToken
  obtain ⟨paid, pays⟩ := (soundBurned.transfer paysFee).pays (afterFee.owned valid.reserve)
    ⟨sender, atSender, senderMint⟩ derived left
  exact ⟨paid, Redeem.interactions_eq_ok.mpr ⟨burned, paidFee, burns, paysFee, pays⟩⟩

end Payment

/-- The reserve of a vault covers what is booked, so the additions to `local_aum` cannot overflow
and a redemption within `local_aum` can be paid. -/
structure Chain.Solvent (c : Chain) (k : Pubkey) (v : VaultState) : Prop where
  covered : v.localAum ≤ c.bank.balance v.reserve
  deposits : ∀ (a : Deposit) m amount paid, a.vaultState = k → a.Valid c v m → a.signer.canSign = true →
    c.bank.transferChecked a.senderTokenAccount a.depositMint a.vaultTokenAta a.signer amount = .ok paid →
      v.localAum + amount ≤ u64Max
  restores : ∀ a amount, a.vaultState = k → c.process (.vault (.operatorDeposit a amount)) ≠ .error .arithmetic
  redeems : ∀ (a : Redeem) m shares burned assets fees, a.vaultState = k → a.Valid c v m →
    c.bank.burnChecked a.senderShareAccount a.shareMint a.signer shares = .ok burned → assets ≤ v.localAum →
      fees ≤ assets → ∃ paid, a.interactions c.bank shares fees (assets - fees) = .ok paid

section Solvency
variable {c c₀ c' : Chain} {i : Instruction} {k : Pubkey} {v v' : VaultState} {history : List (Chain × Instruction)}

theorem Step.exact (reach : Reachable c) (taken : Step c i c') (clean : i.topsUp c k = false)
    (exact : ∀ v, c.vaults.lookup k = some v → v.localAum = c.bank.balance v.reserve)
    (vault' : c'.vaults.lookup k = some v') : v'.localAum = c'.bank.balance v'.reserve := by
  cases vault : c.vaults.lookup k with
  | none =>
    obtain ⟨a, _, _, _, _, _, _, _, withReserve, _, rfl, ran, rfl⟩ := taken.vault_new vault vault'
    cases Option.some.inj ((Finmap.lookup_insert _).symm.trans vault')
    -- The reserve is created empty.
    have empty : withReserve.balance a.vaultTokenAta = 0 := by
      obtain ⟨_, _, rfl⟩ := Bank.initializeAccount_eq_ok.mp ran.reserves
      simp only [Bank.balance, Finmap.lookup_insert, Option.elim_some]
    rw [ran.reserveKey] at empty
    exact empty.symm
  | some v =>
    have sound := reach.vaults_sound k v vault
    have step := taken.book reach.bank_sound sound.formed sound.backed vault vault'
    have reserve : v'.reserve = v.reserve := by
      obtain ⟨depositMint, vaultVersion⟩ := (taken.formed vault vault' sound.formed).mint_eq sound.formed.key
      rw [VaultState.reserve, VaultState.reserve, depositMint, vaultVersion]
    simp only [Instruction.topsUp, vault, Option.any_some, taken.next_eq] at clean
    refine step.exact (exact v vault) (fun drift => ?_) fun shares redeem => ?_
    · simp only [drift, decide_eq_false_iff_not, Nat.not_lt] at clean
      simp only [Chain.book, reserve]
      exact clean
    · simp only [redeem, Bool.true_eq_false] at clean

theorem reserve_exact (first : c₀.Genesis) (run : Run Step c₀ history c) (vault : c.vaults.lookup k = some v)
    (clean : ∀ event ∈ history, event.2.topsUp event.1 k = false) : v.localAum = c.bank.balance v.reserve := by
  induction run generalizing v with
  | start =>
    obtain ⟨_, rfl⟩ := first
    cases vault
  | @next history t i u previous taken ih =>
    have reach : Reachable t := ⟨c₀, history, first.initial, previous⟩
    have earlier := fun event member => clean event (List.mem_cons_of_mem (t, i) member)
    exact taken.exact reach (clean (t, i) List.mem_cons_self) (fun _ before => ih before earlier) vault

/-- What an operator returns was in the reserve's mint all along, so adding it cannot overflow. -/
theorem Chain.VaultSound.restores (sound : c.VaultSound k v) (vault : c.vaults.lookup k = some v)
    (a : OperatorTransfer) (amount : UInt64) (here : a.vaultState = k) :
    FailsWith (· ≠ .arithmetic) (c.process (.vault (.operatorDeposit a amount))) := by
  refine .bind (.require fun _ => Error.noConfusion) fun _ _ => ?_
  change FailsWith _ (OperatorDeposit.handler c a amount.toNat)
  refine .bind (OperatorTransfer.accounts_fails.weaken ?_) fun found accounts => ?_
  · rintro _ (⟨_, rfl⟩ | rfl)
    · exact Error.noConfusion
    · exact Error.noConfusion
  obtain ⟨v₀, t, entry⟩ := found
  have valid := OperatorTransfer.accounts_eq_ok accounts
  refine .bind (.require fun _ => Error.noConfusion) fun _ _ => ?_
  refine .bind (.require fun _ => Error.noConfusion) fun _ _ => ?_
  refine .bind (.require fun _ => Error.noConfusion) fun _ _ => ?_
  refine .bind (Bank.transfer_fails.weaken ?_) fun paid pays => ?_
  · rintro _ ⟨_, rfl⟩
    exact Error.noConfusion
  refine .bind (takenOff_eq v₀.deployedAum amount.toNat ▸ .ok _) fun _ _ => ?_
  refine .bind (.okOr fun overflow => ?_) fun _ _ => .pure _
  -- The reserve already received the amount.
  cases Option.some.inj (vault.symm.trans (here ▸ valid.vault))
  obtain ⟨_, _, reserve⟩ := sound.formed.addresses (here ▸ valid.key) rfl valid.reserveKey
  have apart : a.operatorTokenAccount ≠ a.vaultDepositAta := by
    rw [valid.associated, valid.reserveKey]
    exact Pubkey.noConfusion
  have room := Bank.transfer_fits pays apart
  have covered := sound.solvent
  simp only [Chain.book, Book.Solvent, reserve] at covered
  have within : v.localAum + amount.toNat ≤ u64Max := by omega
  rw [checkedAdd, if_pos within] at overflow
  cases overflow

theorem Chain.VaultSound.deposits (sound : c.VaultSound k v) {a : Deposit} {m : Mint} {amount : Nat} {paid : Bank}
    (here : a.vaultState = k) (valid : a.Valid c v m) (signs : a.signer.canSign = true)
    (pays : c.bank.transferChecked a.senderTokenAccount a.depositMint a.vaultTokenAta a.signer amount = .ok paid) :
    v.localAum + amount ≤ u64Max := by
  subst here
  obtain ⟨_, _, reserve⟩ := sound.formed.addresses valid.key valid.shareMintKey valid.reserveKey
  obtain ⟨t, atReserve, reserveOwner, _⟩ := valid.reserve
  obtain ⟨s, atSender, senderOwner, _⟩ := valid.senderToken
  have apart : a.senderTokenAccount ≠ a.vaultTokenAta := Bank.ne_of_owner ⟨s, atSender, senderOwner⟩
    ⟨t, atReserve, reserveOwner⟩ (Pubkey.ne_of_canSign signs sound.formed.derived)
  have room := Bank.transfer_fits pays apart
  have covered := sound.solvent
  simp only [Chain.book, Book.Solvent, reserve] at covered
  omega

/-- Every vault is solvent, and exactly so while nothing is donated to its reserve and no fee is
paid back into it. -/
theorem reserve_solvent (first : c₀.Genesis) (run : Run Step c₀ history c) (vault : c.vaults.lookup k = some v) :
    c.Solvent k v ∧ ((∀ event ∈ history, event.2.topsUp event.1 k = false) →
      v.localAum = c.bank.balance v.reserve) := by
  have reach : Reachable c := ⟨c₀, history, first.initial, run⟩
  have sound := reach.vaults_sound k v vault
  refine ⟨⟨sound.solvent, ?_, ?_, ?_⟩, reserve_exact first run vault⟩
  · exact fun a m amount paid here valid signs pays => sound.deposits here valid signs pays
  · exact fun a amount here refused => sound.restores vault a amount here _ refused rfl
  · intro a m shares burned assets fees here valid burns liquid afforded
    subst here
    obtain ⟨_, _, reserve⟩ := sound.formed.addresses valid.key valid.shareMintKey valid.reserveKey
    have covered := sound.solvent
    simp only [Chain.book, Book.Solvent, reserve] at covered
    exact valid.pays reach.bank_sound sound.formed.derived burns (by omega)

end Solvency

open Sample in
theorem opened_solvent :
    opened.Solvent vault vaultOpened ∧ vaultOpened.localAum = opened.bank.balance vaultOpened.reserve := by
  have solvent := reserve_solvent ⟨some admin, rfl⟩ (Chain.runAll_run _ opening) opened_vault
  exact ⟨solvent.1, solvent.2 (by decide +kernel)⟩

end Upshift
