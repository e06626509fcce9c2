import Upshift.Moves

namespace Upshift
open Guard KeyedStore

/-- The derived addresses in whose name an instruction calls the token program. -/
def Instruction.derivedSigners : Instruction → List Pubkey
  | .vault (.deposit a _) | .vault (.depositChecked a _ _) => [a.vaultState]
  | .vault (.redeem a _) | .vault (.redeemChecked a _ _) => [a.vaultState]
  | .vault (.operatorWithdraw a _) | .vault (.operatorDeposit a _) => [a.vaultState]
  | .vault (.closeVault a) => [a.vaultState]
  | .queue (.cancelWithdrawal a _) => [a.queue]
  | .queue (.sweepEscrowShares a) => [a.queue]
  | .queue (.finalizeWithdrawal a _) => [a.vaultState, a.queue]
  | _ => []

/-- Who can authorize a token movement inside an instruction. -/
def Instruction.Authorizes (i : Instruction) (a : Pubkey) : Prop := a.canSign = true ∨ a ∈ i.derivedSigners

theorem Instruction.deposits_signers {i : Instruction} {a : Deposit} {amount minSharesOut : Nat}
    (label : i.deposits = some (a, amount, minSharesOut)) :
    i.signers = [a.signer] ∧ i.derivedSigners = [a.vaultState] := by
  obtain ⟨_, rfl, rfl, _⟩ | ⟨_, _, rfl, rfl, _⟩ := Instruction.deposits_eq_some label
  · exact ⟨rfl, rfl⟩
  · exact ⟨rfl, rfl⟩

theorem Instruction.redeems_signers {i : Instruction} {a : Redeem} {shares minAssetsOut : Nat}
    (label : i.redeems = some (a, shares, minAssetsOut)) :
    i.signers = [a.signer] ∧ i.derivedSigners = [a.vaultState] := by
  obtain ⟨_, rfl, rfl, _⟩ | ⟨_, _, rfl, rfl, _⟩ := Instruction.redeems_eq_some label
  · exact ⟨rfl, rfl⟩
  · exact ⟨rfl, rfl⟩

section Interactions
variable {a : Redeem} {b paid : Bank} {shares fees finalAmount : Nat}

theorem Redeem.interactions_eq_ok :
    a.interactions b shares fees finalAmount = .ok paid ↔ ∃ burned paidFee,
      b.burnChecked a.senderShareAccount a.shareMint a.signer shares = .ok burned ∧
      burned.transferChecked a.vaultDepositAta a.depositMint a.feeRecipientAccount a.vaultState fees =
        .ok paidFee ∧
      paidFee.transferChecked a.vaultDepositAta a.depositMint a.senderTokenAccount a.vaultState finalAmount =
        .ok paid := by
  simp only [Redeem.interactions, bind_eq_ok, exists_and_left]

theorem Redeem.interactions_respects {A : Pubkey → Prop} (signer : A a.signer) (vault : A a.vaultState)
    (ran : a.interactions b shares fees finalAmount = .ok paid) : b.Respects A paid := by
  obtain ⟨_, _, burns, paysFee, pays⟩ := Redeem.interactions_eq_ok.mp ran
  exact (Bank.burn_respects burns signer).trans
    ((Bank.transfer_respects paysFee vault).trans (Bank.transfer_respects pays vault))

theorem Redeem.interactions_sound (sound : b.Sound)
    (ran : a.interactions b shares fees finalAmount = .ok paid) : paid.Sound := by
  obtain ⟨_, _, burns, paysFee, pays⟩ := Redeem.interactions_eq_ok.mp ran
  exact ((sound.burn burns).transfer paysFee).transfer pays

theorem Redeem.interactions_keeps (ran : a.interactions b shares fees finalAmount = .ok paid) : b.Keeps paid := by
  obtain ⟨_, _, burns, paysFee, pays⟩ := Redeem.interactions_eq_ok.mp ran
  exact ((Bank.burn_keeps burns).trans (Bank.transfer_keeps paysFee)).trans (Bank.transfer_keeps pays)

theorem Redeem.interactions_supply (ran : a.interactions b shares fees finalAmount = .ok paid) (k : Pubkey) :
    paid.supply k = if k = a.shareMint then b.supply k - shares else b.supply k := by
  obtain ⟨_, _, burns, paysFee, pays⟩ := Redeem.interactions_eq_ok.mp ran
  rw [Bank.transfer_supply pays, Bank.transfer_supply paysFee, Bank.burn_supply burns]

theorem Redeem.interactions_covered (ran : a.interactions b shares fees finalAmount = .ok paid) :
    shares ≤ b.balance a.senderShareAccount ∧ shares ≤ b.supply a.shareMint := by
  obtain ⟨_, _, burns, _, _⟩ := Redeem.interactions_eq_ok.mp ran
  exact Bank.burn_covered burns

theorem Redeem.interactions_fails :
    FailsWith (fun e => ∃ code, e = .token code) (a.interactions b shares fees finalAmount) :=
  .bind Bank.burn_fails fun _ _ => .bind Bank.transfer_fails fun _ _ => Bank.transfer_fails

/-- Every balance after the calls of a redemption, whichever of its accounts are one and the same. -/
theorem Redeem.interactions_flow (ran : a.interactions b shares fees finalAmount = .ok paid) (k : Pubkey) :
    paid.balance k + (if k = a.vaultDepositAta then fees + finalAmount else 0) +
        (if k = a.senderShareAccount then shares else 0) =
      b.balance k + (if k = a.feeRecipientAccount then fees else 0) +
        (if k = a.senderTokenAccount then finalAmount else 0) := by
  obtain ⟨burned, paidFee, burns, paysFee, pays⟩ := Redeem.interactions_eq_ok.mp ran
  have first := Bank.burn_flow burns k
  have second := Bank.transfer_flow paysFee k
  have third := Bank.transfer_flow pays k
  by_cases reserve : k = a.vaultDepositAta
  · rw [if_pos reserve] at second third ⊢
    omega
  · rw [if_neg reserve] at second third ⊢
    omega

/-- A fee account that is the reserve itself leaves the fee where it was. -/
theorem Redeem.interactions_reserve (ran : a.interactions b shares fees finalAmount = .ok paid)
    (burned : a.senderShareAccount ≠ a.vaultDepositAta) (received : a.senderTokenAccount ≠ a.vaultDepositAta) :
    paid.balance a.vaultDepositAta + finalAmount + (if a.feeRecipientAccount = a.vaultDepositAta then 0 else fees) =
      b.balance a.vaultDepositAta := by
  have flow := Redeem.interactions_flow ran a.vaultDepositAta
  rw [if_pos rfl, if_neg burned.symm, if_neg received.symm] at flow
  by_cases aliased : a.feeRecipientAccount = a.vaultDepositAta
  · rw [if_pos aliased.symm] at flow
    rw [if_pos aliased]
    omega
  · rw [if_neg (Ne.symm aliased)] at flow
    rw [if_neg aliased]
    omega

end Interactions

theorem Bank.initAssociatedIfNeeded_respects {A : Pubkey → Prop} {b b' : Bank} {account mint authority : Pubkey}
    (ran : b.initAssociatedIfNeeded account mint authority = .ok b') : b.Respects A b' := by
  obtain ⟨_, created | ⟨rfl, _⟩⟩ := Bank.initAssociatedIfNeeded_eq_ok ran
  · exact Bank.initializeAccount_respects created
  · exact .refl

theorem Bank.Sound.initAssociatedIfNeeded {b b' : Bank} (sound : b.Sound) {account mint authority : Pubkey}
    (ran : b.initAssociatedIfNeeded account mint authority = .ok b') : b'.Sound := by
  obtain ⟨rfl, created | ⟨rfl, _⟩⟩ := Bank.initAssociatedIfNeeded_eq_ok ran
  · exact sound.initializeAssociated created
  · exact sound

theorem Bank.initAssociatedIfNeeded_keeps {b b' : Bank} {account mint authority : Pubkey}
    (ran : b.initAssociatedIfNeeded account mint authority = .ok b') : b.Keeps b' := by
  obtain ⟨_, created | ⟨rfl, _⟩⟩ := Bank.initAssociatedIfNeeded_eq_ok ran
  · exact Bank.initializeAccount_keeps created
  · exact .refl _

/-- An instruction moves tokens only in the name of its signers and of the addresses that sign in it. -/
theorem Step.respects_of {A : Pubkey → Prop} {c c' : Chain} {i : Instruction} (taken : Step c i c')
    (signers : ∀ a ∈ i.signers, A a) (derived : ∀ a ∈ i.derivedSigners, A a) : c.bank.Respects A c'.bank := by
  cases taken.move with
  | quiet _ bank => exact bank ▸ .refl
  | configured _ _ _ bank => exact bank ▸ .refl
  | detached _ _ _ bank => exact bank ▸ .refl
  | scheduled _ _ _ bank => exact bank ▸ .refl
  | attached | reported | registered | deregistered | settled | expedited => exact .refl
  | initialized _ ran =>
    exact (Bank.initializeMint_respects ran.creates).trans (Bank.initializeAccount_respects ran.reserves)
  | @closed a v m closed revoked label ran =>
    subst label
    have acts : A a.vaultState := derived _ List.mem_cons_self
    exact (Bank.closeAccount_respects ran.closes acts).trans (Bank.setMintAuthority_respects ran.revokes acts)
  | deposited label ran =>
    obtain ⟨signed, derives⟩ := Instruction.deposits_signers label
    exact (Bank.transfer_respects ran.pays (signers _ (signed ▸ List.mem_cons_self))).trans
      (Bank.mintTo_respects ran.mints (derived _ (derives ▸ List.mem_cons_self)))
  | redeemed label ran =>
    obtain ⟨signed, derives⟩ := Instruction.redeems_signers label
    exact Redeem.interactions_respects (signers _ (signed ▸ List.mem_cons_self))
      (derived _ (derives ▸ List.mem_cons_self)) ran.interactions
  | withdrew label ran =>
    subst label
    exact Bank.transfer_respects ran.pays (derived _ List.mem_cons_self)
  | @returned a amount v source entry paid label ran =>
    subst label
    refine Bank.transfer_respects ran.pays ?_
    cases entry with
    | none => exact signers _ List.mem_cons_self
    | some _ => exact derived _ List.mem_cons_self
  | opened _ ran =>
    exact (Bank.initAssociatedIfNeeded_respects ran.shares).trans
      (Bank.initAssociatedIfNeeded_respects ran.assets)
  | requested label ran =>
    subst label
    exact Bank.transfer_respects ran.escrows (signers _ List.mem_cons_self)
  | cancelled label ran =>
    subst label
    exact Bank.transfer_respects ran.returns (derived _ List.mem_cons_self)
  | @finalized a sequence q r recipient escrow escrow' v m assets fees paid forwarded label ran =>
    subst label
    have vault : A a.vaultState := derived _ List.mem_cons_self
    have queue : A a.queue := derived _ (List.mem_cons_of_mem _ List.mem_cons_self)
    exact (Redeem.interactions_respects queue vault ran.redeem.interactions).trans
      (Bank.transfer_respects ran.forwards queue)
  | swept label ran =>
    subst label
    exact Bank.transfer_respects ran.sweeps (derived _ List.mem_cons_self)
  | banked label ran =>
    subst label
    exact Bank.execute_respects ran signers

/-- A derived address acts on tokens only inside the instructions that sign for it. -/
theorem Step.respects {c c' : Chain} {i : Instruction} (taken : Step c i c') :
    c.bank.Respects i.Authorizes c'.bank :=
  taken.respects_of (fun a member => Or.inl (taken.signed a member)) fun _ => Or.inr

theorem Step.bank_sound {c c' : Chain} {i : Instruction} (taken : Step c i c') (sound : c.bank.Sound) :
    c'.bank.Sound := by
  have signed := taken.signed
  cases taken.move with
  | quiet _ bank => exact bank ▸ sound
  | configured _ _ _ bank => exact bank ▸ sound
  | detached _ _ _ bank => exact bank ▸ sound
  | scheduled _ _ _ bank => exact bank ▸ sound
  | attached | reported | registered | deregistered | settled | expedited => exact sound
  | initialized _ ran =>
    refine (sound.initializeMint ran.creates).initializeAccount ran.reserves (fun a m here _ => ?_) fun _ => ?_
    · cases ran.reserveKey.symm.trans here
    · rw [ran.key]
      exact ⟨rfl, rfl⟩
  | closed _ ran => exact (sound.closeAccount ran.closes).setMintAuthority ran.revokes
  | deposited _ ran => exact (sound.transfer ran.pays).mintTo ran.mints
  | redeemed _ ran => exact Redeem.interactions_sound sound ran.interactions
  | withdrew _ ran => exact sound.transfer ran.pays
  | returned _ ran => exact sound.transfer ran.pays
  | opened _ ran => exact (sound.initAssociatedIfNeeded ran.shares).initAssociatedIfNeeded ran.assets
  | requested _ ran => exact sound.transfer ran.escrows
  | cancelled _ ran => exact sound.transfer ran.returns
  | finalized _ ran => exact (Redeem.interactions_sound sound ran.redeem.interactions).transfer ran.forwards
  | swept _ ran => exact sound.transfer ran.sweeps
  | banked label ran =>
    subst label
    exact sound.execute ran signed

/-- The programs themselves only move, mint and burn tokens, and open accounts. -/
theorem Step.keeps {c c' : Chain} {i : Instruction} (taken : Step c i c') (program : ∀ t, i ≠ .token t)
    (open' : ∀ a, i ≠ .vault (.closeVault a)) : c.bank.Keeps c'.bank := by
  cases taken.move with
  | quiet _ bank => exact bank ▸ .refl _
  | configured _ _ _ bank => exact bank ▸ .refl _
  | detached _ _ _ bank => exact bank ▸ .refl _
  | scheduled _ _ _ bank => exact bank ▸ .refl _
  | attached | reported | registered | deregistered | settled | expedited => exact .refl _
  | initialized _ ran => exact (Bank.initializeMint_keeps ran.creates).trans (Bank.initializeAccount_keeps ran.reserves)
  | closed label => exact absurd label (open' _)
  | deposited _ ran => exact (Bank.transfer_keeps ran.pays).trans (Bank.mintTo_keeps ran.mints)
  | redeemed _ ran => exact Redeem.interactions_keeps ran.interactions
  | withdrew _ ran => exact Bank.transfer_keeps ran.pays
  | returned _ ran => exact Bank.transfer_keeps ran.pays
  | opened _ ran =>
    exact (Bank.initAssociatedIfNeeded_keeps ran.shares).trans (Bank.initAssociatedIfNeeded_keeps ran.assets)
  | requested _ ran => exact Bank.transfer_keeps ran.escrows
  | cancelled _ ran => exact Bank.transfer_keeps ran.returns
  | finalized _ ran =>
    exact (Redeem.interactions_keeps ran.redeem.interactions).trans (Bank.transfer_keeps ran.forwards)
  | swept _ ran => exact Bank.transfer_keeps ran.sweeps
  | banked label => exact absurd label (program _)

theorem Reachable.bank_sound {c : Chain} (reach : Reachable c) : c.bank.Sound := by
  exact reach.preserves (fun _ => Bank.empty_sound) (fun _ _ _ sound => sound) fun _ _ _ _ sound taken =>
    taken.bank_sound sound

end Upshift
