import Upshift.Queue.Payout

namespace Upshift
open Guard KeyedStore

/-- The same chain with the vault's gate taken away. -/
def Chain.ungated (c : Chain) (k : Pubkey) (v : VaultState) : Chain :=
  { c with vaults := c.vaults.insert k { v with withdrawalQueueAuthority := .default } }

/-- The tokens that a redemption of `shares` for `gross` moves: `fee` of it to one account and the rest
to another. -/
def Chain.Redeemed (c c' : Chain) (v : VaultState) (sender feeRecipientAccount recipient : Pubkey)
    (shares gross : Nat) : Prop :=
  (∀ account, c'.bank.balance account + (if account = v.reserve then gross else 0) +
      (if account = sender then shares else 0) =
    c.bank.balance account + (if account = feeRecipientAccount then Redeem.feeOf gross v.withdrawalFee else 0) +
      (if account = recipient then gross - Redeem.feeOf gross v.withdrawalFee else 0)) ∧
    c'.bank.supply v.shareMint + shares = c.bank.supply v.shareMint

/-- What finalizing the request at `key` for `gross` does, next to a direct redemption of its shares. -/
structure Chain.Finalized (c c' : Chain) (key feeRecipientAccount : Pubkey) (r : WithdrawalRequest)
    (q : WithdrawalQueue) (v : VaultState) (gross : Nat) : Prop where
  redeemed : c.Redeemed c' v q.escrowShares feeRecipientAccount r.recipientTokenAccount r.shares gross
  escrow : c'.bank.balance q.escrowAssets = c.bank.balance q.escrowAssets
  vaults : c'.vaults = c.vaults.insert q.vaultState { v with localAum := v.localAum - gross }
  queues : c'.queues = c.queues.insert r.queue (q.closed r.shares)
  requests : c'.requests = c.requests.erase key
  subaccounts : c'.subaccounts = c.subaccounts
  direct : ∀ a direct, a.vaultState = q.vaultState →
    Redeem.handler (c.ungated q.vaultState v) a r.shares = .ok direct →
      c.Redeemed direct v a.senderShareAccount a.feeRecipientAccount a.senderTokenAccount r.shares gross ∧
        direct.vaults.lookup q.vaultState =
          some { v with withdrawalQueueAuthority := .default, localAum := v.localAum - gross }
  redeemable : ∃ direct, Redeem.handler (c.ungated q.vaultState v)
    ⟨q.vaultState, v.reserve, q.escrowAssets, q.escrowShares, feeRecipientAccount, q.shareMint, q.depositMint, r.queue⟩
    r.shares = .ok direct

section Direct
variable {c : Chain} {a : Redeem} {k : Pubkey} {v v₀ : VaultState} {m : Mint} {shares assets fees : Nat} {paid : Bank}

/-- A redemption moves its gross amount, split by the vault's rate. -/
theorem Redeem.Ran.redeemed (ran : Redeem.Ran c a shares 0 v m assets fees paid) (formed : v.WellFormed a.vaultState) :
    c.Redeemed (Redeem.after c a v assets paid) v a.senderShareAccount a.feeRecipientAccount a.senderTokenAccount
      shares assets := by
  obtain ⟨_, sameShare, sameReserve⟩ :=
    formed.addresses ran.valid.key ran.valid.shareMintKey ran.valid.reserveKey
  cases Redeem.fees_eq_ok ran.charged
  have within := (Redeem.interactions_covered ran.interactions).2
  constructor
  · intro account
    have flow := Redeem.interactions_flow ran.interactions account
    rwa [Nat.add_sub_cancel' ran.afforded, ← sameReserve] at flow
  · change paid.supply v.shareMint + shares = _
    rw [Redeem.interactions_supply ran.interactions, if_pos sameShare, sameShare]
    omega

/-- Without the gate the vault quotes the same redemption. -/
theorem Redeem.Ran.ungated (ran : Redeem.Ran c a shares 0 v m assets fees paid) :
    Redeem.Ran (c.ungated a.vaultState v) a shares 0 { v with withdrawalQueueAuthority := .default } m assets fees
      paid := by
  have valid := ran.valid
  have opened : a.Valid (c.ungated a.vaultState v) { v with withdrawalQueueAuthority := .default } m :=
    ⟨Finmap.lookup_insert _, valid.key, valid.reserveKey, valid.reserve, valid.senderToken, valid.senderShare,
      valid.feeRecipient, valid.shareMint, valid.shareMintKey, valid.mintAuthority, valid.depositMint⟩
  exact ⟨opened, ran.positive, ran.running, Or.inl rfl, ran.total, ran.quoted, ran.charged, ran.afforded,
    ran.bounded, ran.some, ran.liquid, ran.interactions⟩

/-- Any redemption of the same shares without the gate is for the amount quoted. -/
theorem Chain.redeemQuote.ungated {direct : Chain} {gross : Nat} (formed : v.WellFormed a.vaultState)
    (quoted : c.redeemQuote v shares = .ok gross)
    (redeemed : Redeem.handler (c.ungated a.vaultState v) a shares = .ok direct) :
    c.Redeemed direct v a.senderShareAccount a.feeRecipientAccount a.senderTokenAccount shares gross ∧
      direct.vaults.lookup a.vaultState =
        some { v with withdrawalQueueAuthority := .default, localAum := v.localAum - gross } := by
  obtain ⟨v', m, assets, fees, paid, ran, rfl⟩ := Redeem.handlerChecked_eq_ok.mp redeemed
  cases Option.some.inj ((Finmap.lookup_insert _).symm.trans ran.valid.vault)
  have formed' : VaultState.WellFormed { v with withdrawalQueueAuthority := .default } a.vaultState :=
    ⟨formed.key, formed.shareMint, formed.fee, formed.increase, formed.decrease, formed.offset, Or.inl rfl⟩
  have shareMint : v.shareMint = a.shareMint :=
    (formed'.addresses ran.valid.key ran.valid.shareMintKey ran.valid.reserveKey).2.1
  have atMint : c.bank.mints.lookup a.shareMint = some m := ran.valid.shareMint
  have quoted := (Chain.redeemQuote_eq_ok.mp quoted).2
  rw [shareMint, Bank.supply_of_lookup atMint] at quoted
  cases Except.ok.inj (quoted.symm.trans ran.quoted)
  exact ⟨ran.redeemed formed', Finmap.lookup_insert _⟩

end Direct

section Finalize
variable {c c' : Chain} {key feeRecipientAccount finalizer : Pubkey} {r : WithdrawalRequest} {q : WithdrawalQueue}
  {v : VaultState}

/-- An account of anybody but the queue is not the asset escrow. -/
theorem Chain.Holds.fee_apart (holds : c.Holds key r q v) (apart : v.feeRecipient ≠ r.queue)
    (feeAccount : c.FeeAccount v feeRecipientAccount) : feeRecipientAccount ≠ q.escrowAssets := by
  obtain ⟨t, atFee, owner, _⟩ := feeAccount
  obtain ⟨w, atEscrow, escrowOwner, _⟩ := holds.queueSound.escrows.assets
  exact Bank.ne_of_owner ⟨t, atFee, owner⟩ ⟨w, atEscrow, escrowOwner⟩ apart

/-- The asset escrow is neither the reserve nor the share escrow. -/
theorem Chain.Holds.escrow_apart (holds : c.Holds key r q v) :
    q.escrowAssets ≠ v.reserve ∧ q.escrowAssets ≠ q.escrowShares := by
  rw [holds.queueSound.formed.escrowAssets, holds.queueSound.formed.escrowShares, holds.shareMint, holds.depositMint,
    holds.vaultSound.formed.shareMint]
  refine ⟨Pubkey.noConfusion, fun same => ?_⟩
  simp only [Pubkey.associatedToken.injEq, true_and] at same
  exact Pubkey.shareMint_ne_depositMint _ _ same.symm

theorem Chain.Holds.finalized {expectedSequence : Nat} {recipient escrow escrow' : TokenAccount} {m : Mint}
    {gross fees : Nat} {paid forwarded : Bank} (holds : c.Holds key r q v)
    (separate : feeRecipientAccount ≠ q.escrowAssets)
    (ran : FinalizeWithdrawal.Ran c (r.finalization key q v feeRecipientAccount finalizer) expectedSequence q r
      recipient escrow escrow' v m gross fees paid forwarded) :
    c.Finalized (FinalizeWithdrawal.after c (r.finalization key q v feeRecipientAccount finalizer) q r v gross
      (escrow'.amount - escrow.amount) forwarded) key feeRecipientAccount r q v gross := by
  have formed := holds.vaultSound.formed
  have payout : escrow'.amount - escrow.amount = gross - Redeem.feeOf gross v.withdrawalFee :=
    ran.payout_eq.trans (if_neg separate)
  have forwards := ran.forwards
  rw [payout] at forwards
  have redeem := ran.redeem.redeemed formed
  have supply : paid.supply v.shareMint + r.shares = c.bank.supply v.shareMint := redeem.2
  have flow : ∀ account, forwarded.balance account + (if account = v.reserve then gross else 0) +
        (if account = q.escrowShares then r.shares else 0) =
      c.bank.balance account +
        (if account = feeRecipientAccount then Redeem.feeOf gross v.withdrawalFee else 0) +
        (if account = r.recipientTokenAccount then gross - Redeem.feeOf gross v.withdrawalFee else 0) := by
    intro account
    have redeemed : paid.balance account + (if account = v.reserve then gross else 0) +
          (if account = q.escrowShares then r.shares else 0) =
        c.bank.balance account +
          (if account = feeRecipientAccount then Redeem.feeOf gross v.withdrawalFee else 0) +
          (if account = q.escrowAssets then gross - Redeem.feeOf gross v.withdrawalFee else 0) := redeem.1 account
    have moved : forwarded.balance account +
          (if account = q.escrowAssets then gross - Redeem.feeOf gross v.withdrawalFee else 0) =
        paid.balance account +
          (if account = r.recipientTokenAccount then gross - Redeem.feeOf gross v.withdrawalFee else 0) :=
      Bank.transfer_flow forwards account
    omega
  constructor
  · refine ⟨flow, ?_⟩
    change forwarded.supply v.shareMint + r.shares = _
    rw [Bank.transfer_supply forwards, supply]
  · obtain ⟨notReserve, notShares⟩ := holds.escrow_apart
    have notRecipient : q.escrowAssets ≠ r.recipientTokenAccount := Ne.symm ran.recipientKey
    have escrow := flow q.escrowAssets
    rw [if_neg notReserve, if_neg notShares, if_neg separate.symm, if_neg notRecipient] at escrow
    exact escrow
  · rfl
  · rfl
  · rfl
  · rfl
  · intro a direct here redeemed
    have quoted := (holds.payable rfl ran).1.quoted
    rw [← here] at formed redeemed ⊢
    exact Chain.redeemQuote.ungated formed quoted redeemed
  · exact ⟨_, Redeem.handlerChecked_eq_ok.mpr ⟨_, m, gross, fees, paid, ran.redeem.ungated, rfl⟩⟩

/-- Finalizing succeeds exactly when the request is payable above its floor by an admitted caller that
quotes its stamp, and pays what a direct redemption of the same shares would have paid. A mint's issuer
could stand in the way by freezing one of the accounts: `WideStep.system_iff` adds that condition. -/
theorem Reachable.finalize_redeems (reach : Reachable c) (live : c.requests.lookup key = some r)
    (queue : c.queues.lookup r.queue = some q) (vault : c.vaults.lookup q.vaultState = some v)
    (apart : v.feeRecipient ≠ r.queue) (feeAccount : c.FeeAccount v feeRecipientAccount)
    (signs : finalizer.canSign = true) (expectedSequence : UInt64) :
    ((∃ c', Step c (.queue (.finalizeWithdrawal (r.finalization key q v feeRecipientAccount finalizer)
        expectedSequence)) c') ↔
      r.sequence = expectedSequence.toNat ∧ r.mayFinalize finalizer ∧ ∃ gross, c.Payable r q v gross ∧
        r.minAssetsOut ≤ gross - Redeem.feeOf gross v.withdrawalFee) ∧
    ∀ c', Step c (.queue (.finalizeWithdrawal (r.finalization key q v feeRecipientAccount finalizer)
      expectedSequence)) c' → ∃ gross, c.redeemQuote v r.shares = .ok gross ∧
        c.Finalized c' key feeRecipientAccount r q v gross := by
  have holds := reach.holds live queue vault
  have separate := holds.fee_apart apart feeAccount
  have net : ∀ gross, q.payout v feeRecipientAccount gross = gross - Redeem.feeOf gross v.withdrawalFee :=
    fun gross => if_neg separate
  refine ⟨⟨?_, ?_⟩, ?_⟩
  · rintro ⟨c', taken⟩
    obtain ⟨q₀, r₀, recipient, escrow, escrow', v₀, m, gross, fees, paid, forwarded, ran, rfl⟩ :=
      FinalizeWithdrawal.handler_eq_ok.mp taken.executed
    obtain ⟨rfl, rfl, rfl, _⟩ := holds.forced rfl ran
    obtain ⟨payable, _, floor⟩ := holds.payable rfl ran
    exact ⟨ran.sequence, ran.admitted, gross, payable, net gross ▸ floor⟩
  · rintro ⟨stamp, admitted, gross, payable, floor⟩
    exact holds.finalize_taken reach.bank_sound payable feeAccount admitted signs stamp (net gross ▸ floor)
  · intro c' taken
    obtain ⟨q₀, r₀, recipient, escrow, escrow', v₀, m, gross, fees, paid, forwarded, ran, rfl⟩ :=
      FinalizeWithdrawal.handler_eq_ok.mp taken.executed
    obtain ⟨rfl, rfl, rfl, _⟩ := holds.forced rfl ran
    exact ⟨gross, (holds.payable rfl ran).1.quoted, holds.finalized separate ran⟩

end Finalize

namespace Sample

/-- The cooldown passes, with a fee set and assets sent to the escrow by mistake. -/
def maturing : List Instruction :=
  [.vault (.setWithdrawalFee ⟨vault, mint, admin⟩ 10000),
    .token (.transfer (wallet user) mint escrowAssets user 900),
    .clock 3600]

def matured : Chain := (Chain.genesis (some admin)).runAll (opening ++ queueing ++ maturing)

def vaultMatured : VaultState := { vaultOpened with withdrawalFee := 10000, withdrawalQueueAuthority := queue }

theorem matured_vault : matured.vaults.lookup vault = some vaultMatured := by decide +kernel

theorem matured_queue : matured.queues.lookup queue = some queueOpened := by decide +kernel

theorem matured_request : matured.requests.lookup (request 7) = some requestOpened := by decide +kernel

end Sample

open Sample in
theorem matured_finalize_redeems : ∃ c',
    Step matured (.queue (.finalizeWithdrawal
      (requestOpened.finalization (request 7) queueOpened vaultMatured (wallet admin) user) 1)) c' ∧
    matured.Finalized c' (request 7) (wallet admin) requestOpened queueOpened vaultMatured 50000 := by
  have redeems := Reachable.finalize_redeems (Chain.runAll_reachable _ _) matured_request matured_queue matured_vault
    (by decide) (⟨⟨mint, admin, 0, none, 0, none⟩, by decide +kernel, rfl, rfl⟩ :
      matured.FeeAccount vaultMatured (wallet admin)) (show user.canSign = true from rfl) 1
  have taken := @Step.of_accepts matured (.queue (.finalizeWithdrawal
    (requestOpened.finalization (request 7) queueOpened vaultMatured (wallet admin) user) 1)) (by decide +kernel)
  obtain ⟨gross, quoted, finalized⟩ := redeems.2 _ taken
  have quote : matured.redeemQuote vaultMatured requestOpened.shares = .ok 50000 := by decide +kernel
  cases Except.ok.inj (quoted.symm.trans quote)
  exact ⟨_, taken, finalized⟩

end Upshift
