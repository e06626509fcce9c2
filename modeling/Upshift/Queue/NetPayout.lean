import Upshift.Queue.Caller
import Upshift.Vault.Coalition
import Upshift.Vault.Trades

namespace Upshift
open Guard KeyedStore History

/-- An exit as the one who leaves sees it: where the payout and the fee go, whether the fee comes back with the
payout, and what is paid net of the fee. -/
structure ExitCall where
  vaultState : Pubkey
  recipient : Pubkey
  feeRecipientAccount : Pubkey
  feeReturned : Bool
  shares : Nat
  payout : Result Nat

/-- What a redemption transfers to the redeemer. -/
def Redeem.finalAmount (a : Redeem) (c : Chain) (shares : Nat) : Result Nat := do
  let (v, supply) ← a.accounts c
  let totalAssets ← v.totalAssets
  let assets ← v.assetsForRedeem supply totalAssets shares
  let fees ← Redeem.fees assets v.withdrawalFee
  okOr (checkedSub assets fees) (.vault .mathError)

def Redeem.exitCall (a : Redeem) (c : Chain) (shares : Nat) : ExitCall :=
  ⟨a.vaultState, a.senderTokenAccount, a.feeRecipientAccount, false, shares, a.finalAmount c shares⟩

def FinalizeWithdrawal.exitCall (a : FinalizeWithdrawal) (c : Chain) : ExitCall :=
  ⟨a.vaultState, a.recipientTokenAccount, a.feeRecipientAccount, decide (a.feeRecipientAccount = a.escrowAssets),
    (c.requests.lookup a.request).elim 0 fun r => r.shares, a.forwarded c⟩

def Chain.exitCall (c : Chain) : Instruction → Option ExitCall
  | .vault (.redeem a shares) => some (a.exitCall c shares.toNat)
  | .vault (.redeemChecked a shares _) => some (a.exitCall c shares.toNat)
  | .queue (.finalizeWithdrawal a _) => some (a.exitCall c)
  | _ => none

/-- If the instruction is an exit, it pays something. -/
def Chain.PaysSomething (c : Chain) (i : Instruction) : Prop :=
  ∀ call, c.exitCall i = some call → ∃ paid, call.payout = .ok paid ∧ 0 < paid

/-- The payout of an exit is what its recipient gains, unless the fee goes to the same account. -/
def Chain.Credits (c : Chain) (i : Instruction) (c' : Chain) : Prop :=
  ∀ call paid, c.exitCall i = some call → call.payout = .ok paid → call.recipient ≠ call.feeRecipientAccount →
    c'.bank.balance call.recipient = c.bank.balance call.recipient + paid

/-- Some shares are worth two units of the deposit token, at the offset rate and pro rata. -/
def VaultState.WorthTwo (v : VaultState) (supply shares : Nat) : Prop :=
  2 * (supply + v.resolvedShareOffset) ≤ shares * (v.localAum + v.deployedAum + v.resolvedShareOffset) ∧
    2 * supply ≤ shares * (v.localAum + v.deployedAum)

/-- An exit is free of charge, or gets its fee back, or its shares are worth more than the fee on one unit. -/
def Chain.Worthwhile (c : Chain) (i : Instruction) : Prop :=
  ∀ call v, c.exitCall i = some call → c.vaults.lookup call.vaultState = some v →
    v.withdrawalFee = 0 ∨ call.feeReturned = true ∨ v.WorthTwo (c.bank.supply v.shareMint) call.shares

/-- A successful exit, with the vault it drew on and what it paid. -/
structure ExitCall.Settled (call : ExitCall) (c c' : Chain) (v : VaultState) (paid : Nat) : Prop where
  vault : c.vaults.lookup call.vaultState = some v
  payout : call.payout = .ok paid
  credited : call.recipient ≠ call.feeRecipientAccount →
    c'.bank.balance call.recipient = c.bank.balance call.recipient + paid
  positive : 0 < paid ↔
    v.withdrawalFee = 0 ∨ call.feeReturned = true ∨ v.WorthTwo (c.bank.supply v.shareMint) call.shares

section Value
variable {supply total shares offset assets withdrawalFee : Nat}

theorem VaultState.two_le_quote_iff (positive : 0 < offset)
    (quoted : VaultState.assetsForRedeemWithOffset supply total shares offset = .ok assets) :
    2 ≤ assets ↔ 2 * (supply + offset) ≤ shares * (total + offset) ∧ 2 * supply ≤ shares * total := by
  obtain ⟨_, rfl⟩ := VaultState.assetsForRedeem_value quoted
  have shifted : 0 < supply + offset := by omega
  by_cases empty : supply = 0
  · subst empty
    rw [if_pos rfl, Nat.le_div_iff_mul_le shifted]
    exact ⟨fun worth => ⟨worth, Nat.zero_le _⟩, fun worth => worth.1⟩
  · rw [if_neg empty, le_min_iff, Nat.le_div_iff_mul_le shifted, Nat.le_div_iff_mul_le (Nat.pos_of_ne_zero empty)]

/-- A charged exit of one unit is left with nothing, any other with something. -/
theorem Redeem.net_pos_iff (some : 0 < assets) (bounded : withdrawalFee < 100000) :
    0 < assets - Redeem.feeOf assets withdrawalFee ↔ withdrawalFee = 0 ∨ 2 ≤ assets := by
  by_cases free : withdrawalFee = 0
  · subst free
    rw [Redeem.feeOf_free]
    exact ⟨fun _ => Or.inl rfl, fun _ => some⟩
  · have charged := Redeem.feeOf_pos some free
    have scaled : assets * withdrawalFee ≤ assets * 100000 := Nat.mul_le_mul_left _ (Nat.le_of_lt bounded)
    have small : Redeem.feeOf assets withdrawalFee ≤ (assets * 100000 + 999999) / 1000000 := by
      unfold Redeem.feeOf
      omega
    omega

end Value

section Exit
variable {c c' : Chain} {i : Instruction} {v : VaultState} {m : Mint} {assets fees : Nat} {paid : Bank}

section Redemption
variable {a : Redeem} {shares minAssetsOut : Nat}

theorem Redeem.Ran.finalAmount (ran : Redeem.Ran c a shares minAssetsOut v m assets fees paid) :
    a.finalAmount c shares = .ok (assets - fees) := by
  simp only [Redeem.finalAmount, bind_eq_ok, Prod.exists, Redeem.accounts_eq_ok, VaultState.totalAssets_eq_ok,
    okOr_eq_ok, checkedSub_eq_some]
  exact ⟨v, _, ⟨m, ran.valid, rfl⟩, _, ⟨ran.total, rfl⟩, assets, ran.quoted, fees, ran.charged, ran.afforded, rfl⟩

/-- The net amount of a successful redemption is positive exactly where there is no fee or the shares are worth two. -/
theorem Redeem.Ran.net_pos_iff (ran : Redeem.Ran c a shares minAssetsOut v m assets fees paid)
    (formed : v.WellFormed a.vaultState) :
    0 < assets - fees ↔ v.withdrawalFee = 0 ∨ v.WorthTwo (c.bank.supply v.shareMint) shares := by
  obtain ⟨_, shareMint, _⟩ := formed.addresses ran.valid.key ran.valid.shareMintKey ran.valid.reserveKey
  have quoted := ran.quoted
  rw [← Bank.supply_of_lookup ran.valid.shareMint, ← shareMint] at quoted
  rw [Redeem.fees_eq_ok ran.charged, Redeem.net_pos_iff ran.some formed.fee]
  exact or_congr_right (VaultState.two_le_quote_iff v.resolvedShareOffset_pos quoted)

theorem Redeem.Ran.credited (ran : Redeem.Ran c a shares minAssetsOut v m assets fees paid)
    (signer : a.signer ≠ a.vaultState) (apart : a.senderTokenAccount ≠ a.feeRecipientAccount) :
    paid.balance a.senderTokenAccount = c.bank.balance a.senderTokenAccount + (assets - fees) := by
  have flow := Redeem.interactions_flow ran.interactions a.senderTokenAccount
  rwa [if_neg (ran.valid.receiver_apart signer), if_neg ran.valid.burner_apart.1.symm, if_neg apart, if_pos rfl] at flow

theorem Redeem.Ran.settled (ran : Redeem.Ran c a shares minAssetsOut v m assets fees paid)
    (formed : v.WellFormed a.vaultState) (signer : a.signer ≠ a.vaultState) :
    (a.exitCall c shares).Settled c (Redeem.after c a v assets paid) v (assets - fees) := by
  refine ⟨ran.valid.vault, ran.finalAmount, ran.credited signer, ran.net_pos_iff formed |>.trans ?_⟩
  simp only [Redeem.exitCall, Bool.false_eq_true, false_or]

end Redemption

section Finalization
variable {a : FinalizeWithdrawal} {expectedSequence : Nat} {q : WithdrawalQueue} {r : WithdrawalRequest}
  {recipient escrow escrow' : TokenAccount} {forwarded : Bank}

/-- Of the accounts that the redemption moves, the recipient's can only be the one the fee goes to. -/
theorem FinalizeWithdrawal.Ran.credited
    (ran : FinalizeWithdrawal.Ran c a expectedSequence q r recipient escrow escrow' v m assets fees paid forwarded)
    (apart : a.recipientTokenAccount ≠ a.feeRecipientAccount) :
    forwarded.balance a.recipientTokenAccount =
      c.bank.balance a.recipientTokenAccount + (escrow'.amount - escrow.amount) := by
  obtain ⟨redeemed, forwards⟩ := ran.recipient_flow
  rw [if_neg apart] at redeemed
  omega

/-- What is forwarded is the net amount of the redemption, or all of it where the escrow takes the fee. -/
theorem FinalizeWithdrawal.Ran.settled
    (ran : FinalizeWithdrawal.Ran c a expectedSequence q r recipient escrow escrow' v m assets fees paid forwarded)
    (formed : v.WellFormed a.vaultState) :
    (a.exitCall c).Settled c (FinalizeWithdrawal.after c a q r v assets (escrow'.amount - escrow.amount) forwarded) v
      (escrow'.amount - escrow.amount) := by
  have shares : (a.exitCall c).shares = r.shares := by
    simp only [FinalizeWithdrawal.exitCall, ran.valid.request, Option.elim_some]
  refine ⟨ran.redeem.valid.vault, ran.payout_eq ▸ ran.forwarded, ran.credited, ?_⟩
  rw [shares, FinalizeWithdrawal.escrow_grows ran.valid ran.redeem.valid ran.redeem.interactions ran.atEscrow'
    ran.redeem.afforded, Nat.add_sub_cancel_left]
  by_cases aliased : a.feeRecipientAccount = a.escrowAssets
  · have returned : (a.exitCall c).feeReturned = true := decide_eq_true aliased
    rw [if_pos aliased]
    exact ⟨fun _ => Or.inr (Or.inl returned), fun _ => ran.redeem.some⟩
  · have kept : (a.exitCall c).feeReturned = false := decide_eq_false aliased
    rw [if_neg aliased, ran.redeem.net_pos_iff formed, kept]
    simp only [Bool.false_eq_true, false_or]

end Finalization

theorem Chain.exitCall_eq_some {call : ExitCall} (label : c.exitCall i = some call) :
    (∃ a shares minAssetsOut, i.redeems = some (a, shares, minAssetsOut) ∧ call = a.exitCall c shares) ∨
      ∃ a expectedSequence, i = .queue (.finalizeWithdrawal a expectedSequence) ∧ call = a.exitCall c := by
  unfold Chain.exitCall at label
  split at label
  · exact Or.inl ⟨_, _, _, rfl, (Option.some.inj label).symm⟩
  · exact Or.inl ⟨_, _, _, rfl, (Option.some.inj label).symm⟩
  · exact Or.inr ⟨_, _, rfl, (Option.some.inj label).symm⟩
  · cases label

theorem Step.settled (reach : Reachable c) (taken : Step c i c') {call : ExitCall} (label : c.exitCall i = some call) :
    ∃ v paid, call.Settled c c' v paid := by
  obtain ⟨a, shares, minAssetsOut, redeems, rfl⟩ | ⟨a, expectedSequence, rfl, rfl⟩ := Chain.exitCall_eq_some label
  · have executed := taken.executed
    rw [Chain.execute_redeems redeems] at executed
    obtain ⟨v, m, gross, fee, paid, ran, rfl⟩ := Redeem.handlerChecked_eq_ok.mp executed
    have formed := (reach.vaults_sound _ v ran.valid.vault).formed
    have signs := taken.signed a.signer (by
      rw [(Instruction.redeems_signers redeems).1]
      exact List.mem_singleton_self _)
    refine ⟨v, gross - fee, ran.settled formed fun same => ?_⟩
    rw [same, formed.key] at signs
    cases signs
  · obtain ⟨q, r, recipient, escrow, escrow', v, m, gross, fee, paid, forwarded, ran, rfl⟩ :=
      FinalizeWithdrawal.handler_eq_ok.mp taken.executed
    exact ⟨v, _, ran.settled (reach.vaults_sound _ v ran.redeem.valid.vault).formed⟩

/-- A successful exit pays something exactly where it is worthwhile. -/
theorem Step.net_payout (reach : Reachable c) (taken : Step c i c') :
    c.Credits i c' ∧ (c.PaysSomething i ↔ c.Worthwhile i) := by
  constructor
  · intro call paid label payout apart
    obtain ⟨v, paid', settled⟩ := taken.settled reach label
    cases Except.ok.inj (payout.symm.trans settled.payout)
    exact settled.credited apart
  · constructor
    · intro pays call v label vault
      obtain ⟨w, paid, settled⟩ := taken.settled reach label
      cases Option.some.inj (vault.symm.trans settled.vault)
      obtain ⟨paid', payout, positive⟩ := pays call label
      cases Except.ok.inj (payout.symm.trans settled.payout)
      exact settled.positive.mp positive
    · intro worthwhile call label
      obtain ⟨v, paid, settled⟩ := taken.settled reach label
      exact ⟨paid, settled.payout, settled.positive.mpr (worthwhile call v label settled.vault)⟩

end Exit

/-- In every run each exit pays what its recipient gains, and that is something exactly where no fee is charged or
the fee comes back or the shares are worth two units: the guard is on the gross amount, and a fee is never below one
unit. -/
theorem exits_pay_iff {c₀ c : Chain} {history : List (Chain × Instruction)} (genesis : c₀.Genesis)
    (run : Run Step c₀ history c) : ∀ event ∈ history, event.1.Credits event.2 (event.1.next event.2) ∧
      (event.1.PaysSomething event.2 ↔ event.1.Worthwhile event.2) := by
  intro event member
  obtain ⟨earlier, after, _, before, taken⟩ := run.at_event member
  rw [taken.next_eq]
  exact taken.net_payout ⟨c₀, earlier, genesis.initial, before⟩

namespace Sample

/-- A vault with the least fee, and a redemption of one share. -/
def shaved : Chain := (Chain.genesis (some admin)).runAll (opening ++ [.vault (.setWithdrawalFee ⟨vault, mint, admin⟩ 1)])

def redeemingDust : Instruction := .vault (.redeem redeem 1)

/-- A request for one share, due under the same fee. -/
def dusting : List Instruction :=
  [.queue (.requestWithdrawal (requesting 8) 8 1 0 .default),
    .vault (.setWithdrawalFee ⟨vault, mint, admin⟩ 1),
    .clock 3600]

def dusted : Chain := (Chain.genesis (some admin)).runAll (opening ++ queueing ++ dusting)

def finalizingDust : FinalizeWithdrawal :=
  { requestOpened with shares := 1, requestId := 8 }.finalization (request 8) queueOpened vaultMatured (wallet admin) user

end Sample

open Sample in
theorem dusted_exits_pay_iff :
    dusted.Credits (.queue (.finalizeWithdrawal finalizingDust 2))
        (dusted.next (.queue (.finalizeWithdrawal finalizingDust 2))) ∧
      (dusted.PaysSomething (.queue (.finalizeWithdrawal finalizingDust 2)) ↔
        dusted.Worthwhile (.queue (.finalizeWithdrawal finalizingDust 2))) := by
  have run := Chain.runAll_run (Chain.genesis (some admin)) (opening ++ queueing ++ dusting)
  have taken : Step dusted (.queue (.finalizeWithdrawal finalizingDust 2)) _ := .of_accepts (by decide +kernel)
  exact exits_pay_iff ⟨some admin, rfl⟩ (.next run taken) (dusted, _) (List.mem_cons_self ..)

open Sample in
/-- In both programs one share is burned for a payout of nothing. -/
theorem dust_exits_pay_nothing :
    (Reachable shaved ∧ shaved.accepts redeemingDust = true ∧ (redeem.exitCall shaved 1).payout = .ok 0 ∧
      (shaved.next redeemingDust).bank.supply shareMint + 1 = shaved.bank.supply shareMint) ∧
    (Reachable dusted ∧ dusted.accepts (.queue (.finalizeWithdrawal finalizingDust 2)) = true ∧
      (finalizingDust.exitCall dusted).payout = .ok 0 ∧
      (dusted.next (.queue (.finalizeWithdrawal finalizingDust 2))).bank.supply shareMint + 1 =
        dusted.bank.supply shareMint) ∧
    ¬∀ c i c', Reachable c → Step c i c' → c.PaysSomething i := by
  have nothing : (redeem.exitCall shaved 1).payout = .ok 0 := by decide +kernel
  have reach : Reachable shaved := Chain.runAll_reachable _ _
  have accepted : shaved.accepts redeemingDust = true := by decide +kernel
  refine ⟨⟨reach, accepted, nothing, by decide +kernel⟩, ⟨Chain.runAll_reachable _ _, by decide +kernel,
    by decide +kernel, by decide +kernel⟩, fun pays => ?_⟩
  obtain ⟨paid, payout, positive⟩ := pays shaved redeemingDust _ reach (.of_accepts accepted) _ rfl
  have zero : paid = 0 := Except.ok.inj (payout.symm.trans nothing)
  omega

end Upshift
