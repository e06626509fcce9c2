import Upshift.Queue.Cancel
import Upshift.Vault.Solvency

namespace Upshift
open Guard KeyedStore

/-- The accounts of a finalization that names what the request, its queue and its vault store. -/
def WithdrawalRequest.finalization (r : WithdrawalRequest) (key : Pubkey) (q : WithdrawalQueue) (v : VaultState)
    (feeRecipientAccount finalizer : Pubkey) : FinalizeWithdrawal where
  queue := r.queue
  vaultState := q.vaultState
  vaultDepositAta := v.reserve
  feeRecipientAccount := feeRecipientAccount
  escrowShares := q.escrowShares
  escrowAssets := q.escrowAssets
  shareMint := q.shareMint
  depositMint := q.depositMint
  finalizer := finalizer
  request := key
  owner := r.owner
  recipientTokenAccount := r.recipientTokenAccount

/-- What the asset escrow grows by, and so what is forwarded, for a gross amount. -/
def WithdrawalQueue.payout (q : WithdrawalQueue) (v : VaultState) (feeRecipientAccount : Pubkey) (gross : Nat) : Nat :=
  if feeRecipientAccount = q.escrowAssets then gross else gross - Redeem.feeOf gross v.withdrawalFee

/-- The request is due, its recipient is still valid, and its vault can redeem it for `gross`. -/
structure Chain.Payable (c : Chain) (r : WithdrawalRequest) (q : WithdrawalQueue) (v : VaultState) (gross : Nat) :
    Prop where
  eligible : r.eligibleAt ≤ c.clock
  unexpired : r.expiresAt = 0 ∨ c.clock < r.expiresAt
  recipient : ∃ t, c.bank.accounts.lookup r.recipientTokenAccount = some t ∧
    requireValidRecipient r.recipientTokenAccount t r.queue q = .ok ()
  running : v.paused = false
  quoted : c.redeemQuote v r.shares = .ok gross
  some : 0 < gross
  liquid : gross ≤ v.localAum

/-- An account the vault accepts for its fee. -/
def Chain.FeeAccount (c : Chain) (v : VaultState) (account : Pubkey) : Prop :=
  ∃ t, c.bank.accounts.lookup account = some t ∧ t.owner = v.feeRecipient ∧ t.mint = v.depositMint

section Inversion
variable {c : Chain} {a : FinalizeWithdrawal} {expectedSequence : Nat} {q : WithdrawalQueue} {r : WithdrawalRequest}
  {recipient escrow escrow' : TokenAccount} {v : VaultState} {m : Mint} {assets fees : Nat} {paid forwarded : Bank}

/-- The asset escrow receives the net amount, and the fee too if it is the fee account. -/
theorem FinalizeWithdrawal.escrow_grows (valid : a.Valid c q r recipient escrow) (redeem : a.redeem.Valid c v m)
    (ran : a.redeem.interactions c.bank r.shares fees (assets - fees) = .ok paid)
    (atEscrow' : paid.accounts.lookup a.escrowAssets = some escrow') (afforded : fees ≤ assets) :
    escrow'.amount = escrow.amount + if a.feeRecipientAccount = a.escrowAssets then assets else assets - fees := by
  have notShare : a.escrowAssets ≠ a.escrowShares := redeem.burner_apart.1.symm
  have notReserve : a.escrowAssets ≠ a.vaultDepositAta := redeem.receiver_apart (valid.signer redeem)
  have flow := Redeem.interactions_flow ran a.escrowAssets
  rw [if_neg (show a.escrowAssets ≠ a.redeem.vaultDepositAta from notReserve),
    if_neg (show a.escrowAssets ≠ a.redeem.senderShareAccount from notShare),
    if_pos (show a.escrowAssets = a.redeem.senderTokenAccount from rfl), Bank.balance_of_lookup atEscrow',
    Bank.balance_of_lookup valid.atEscrowAssets] at flow
  by_cases aliased : a.feeRecipientAccount = a.escrowAssets
  · rw [if_pos (show a.escrowAssets = a.redeem.feeRecipientAccount from aliased.symm)] at flow
    rw [if_pos aliased]
    omega
  · rw [if_neg (show a.escrowAssets ≠ a.redeem.feeRecipientAccount from Ne.symm aliased)] at flow
    rw [if_neg aliased]
    omega

theorem FinalizeWithdrawal.Ran.payout_eq
    (ran : FinalizeWithdrawal.Ran c a expectedSequence q r recipient escrow escrow' v m assets fees paid forwarded) :
    escrow'.amount - escrow.amount = q.payout v a.feeRecipientAccount assets := by
  have grows := FinalizeWithdrawal.escrow_grows ran.valid ran.redeem.valid ran.redeem.interactions ran.atEscrow'
    ran.redeem.afforded
  rw [grows, Nat.add_sub_cancel_left, WithdrawalQueue.payout, ran.valid.escrowAssets,
    Redeem.fees_eq_ok ran.redeem.charged]

/-- The recipient gets what the escrow grew by, after the fee if that goes to the same account. -/
theorem FinalizeWithdrawal.Ran.recipient_flow
    (ran : FinalizeWithdrawal.Ran c a expectedSequence q r recipient escrow escrow' v m assets fees paid forwarded) :
    paid.balance a.recipientTokenAccount = c.bank.balance a.recipientTokenAccount +
        (if a.recipientTokenAccount = a.feeRecipientAccount then fees else 0) ∧
      forwarded.balance a.recipientTokenAccount =
        paid.balance a.recipientTokenAccount + (escrow'.amount - escrow.amount) := by
  obtain ⟨notReserve, notShares⟩ := ran.recipient_apart
  have notAssets : a.recipientTokenAccount ≠ a.escrowAssets := ran.valid.escrowAssets ▸ ran.recipientKey
  have redeemed := Redeem.interactions_flow ran.redeem.interactions a.recipientTokenAccount
  rw [show a.redeem.vaultDepositAta = a.vaultDepositAta from rfl, if_neg notReserve,
    show a.redeem.senderShareAccount = a.escrowShares from rfl, if_neg notShares,
    show a.redeem.senderTokenAccount = a.escrowAssets from rfl, if_neg notAssets] at redeemed
  have forwards := Bank.transfer_flow ran.forwards a.recipientTokenAccount
  rw [if_neg notAssets, if_pos rfl] at forwards
  exact ⟨redeemed, forwards⟩

/-- Whatever the fee account is, the recipient gets all that the escrow grew by. -/
theorem FinalizeWithdrawal.Ran.recipient_paid
    (ran : FinalizeWithdrawal.Ran c a expectedSequence q r recipient escrow escrow' v m assets fees paid forwarded) :
    c.bank.balance r.recipientTokenAccount + (escrow'.amount - escrow.amount) ≤
      forwarded.balance r.recipientTokenAccount := by
  obtain ⟨redeemed, forwards⟩ := ran.recipient_flow
  rw [ran.valid.stored]
  omega

end Inversion

/-- A live request with the queue and the vault it belongs to. -/
structure Chain.Holds (c : Chain) (key : Pubkey) (r : WithdrawalRequest) (q : WithdrawalQueue) (v : VaultState) :
    Prop where
  live : c.requests.lookup key = some r
  queue : c.queues.lookup r.queue = some q
  vault : c.vaults.lookup q.vaultState = some v
  requestSound : c.RequestSound key r
  queueSound : c.QueueSound r.queue q
  vaultSound : c.VaultSound q.vaultState v
  depositMint : q.depositMint = v.depositMint
  shareMint : q.shareMint = v.shareMint

section Holds
variable {c c' : Chain} {key : Pubkey} {r : WithdrawalRequest} {q : WithdrawalQueue} {v : VaultState}

theorem Reachable.holds (reach : Reachable c) (live : c.requests.lookup key = some r)
    (queue : c.queues.lookup r.queue = some q) (vault : c.vaults.lookup q.vaultState = some v) :
    c.Holds key r q v := by
  have queueSound := reach.queues_sound r.queue q queue
  have vaultSound := reach.vaults_sound q.vaultState v vault
  obtain ⟨vaultVersion, vaultKey, shareMint⟩ := queueSound.formed.vault
  obtain ⟨depositMint, version⟩ := vaultSound.formed.mint_eq vaultKey
  have sameShare : q.shareMint = v.shareMint := by
    rw [shareMint, vaultSound.formed.shareMint, depositMint, version]
  exact ⟨live, queue, vault, reach.requests_sound key r live, queueSound, vaultSound, depositMint.symm, sameShare⟩

/-- Only the finalizer and the fee account are left to the caller. -/
theorem Chain.Holds.forced {a : FinalizeWithdrawal} {expectedSequence : Nat} {q₀ : WithdrawalQueue}
    {r₀ : WithdrawalRequest} {recipient escrow escrow' : TokenAccount} {v₀ : VaultState} {m : Mint}
    {assets fees : Nat} {paid forwarded : Bank} (holds : c.Holds key r q v) (here : a.request = key)
    (ran : FinalizeWithdrawal.Ran c a expectedSequence q₀ r₀ recipient escrow escrow' v₀ m assets fees paid
      forwarded) :
    q₀ = q ∧ r₀ = r ∧ v₀ = v ∧ a = r.finalization key q v a.feeRecipientAccount a.finalizer := by
  subst here
  have valid := ran.valid
  cases Option.some.inj (valid.request.symm.trans holds.live)
  have queue := holds.queue
  rw [valid.requestQueue] at queue
  cases Option.some.inj (valid.queue.symm.trans queue)
  have vault := holds.vault
  rw [valid.queueVault] at vault
  have redeem := ran.redeem.valid
  cases Option.some.inj (redeem.vault.symm.trans vault)
  refine ⟨rfl, rfl, rfl, ?_⟩
  have reserve : a.vaultDepositAta = v.reserve :=
    redeem.reserveKey.trans (by rw [VaultState.reserve, ← holds.depositMint, valid.depositMint]; rfl)
  rw [WithdrawalRequest.finalization, valid.requestQueue, valid.queueVault, valid.depositMint, valid.shareMint,
    valid.escrowShares, valid.escrowAssets, valid.owner, valid.stored, ← reserve]

/-- A finalization that succeeds found the request payable and cleared its floor. -/
theorem Chain.Holds.payable {a : FinalizeWithdrawal} {expectedSequence : Nat} {q₀ : WithdrawalQueue}
    {r₀ : WithdrawalRequest} {recipient escrow escrow' : TokenAccount} {v₀ : VaultState} {m : Mint}
    {assets fees : Nat} {paid forwarded : Bank} (holds : c.Holds key r q v) (here : a.request = key)
    (ran : FinalizeWithdrawal.Ran c a expectedSequence q₀ r₀ recipient escrow escrow' v₀ m assets fees paid
      forwarded) :
    c.Payable r q v assets ∧ c.FeeAccount v a.feeRecipientAccount ∧
      r.minAssetsOut ≤ q.payout v a.feeRecipientAccount assets := by
  obtain ⟨rfl, rfl, rfl, _⟩ := holds.forced here ran
  have valid := ran.valid
  have redeem := ran.redeem.valid
  have shareMint : a.redeem.shareMint = v₀.shareMint := valid.shareMint.symm.trans holds.shareMint
  have depositMint : a.redeem.depositMint = v₀.depositMint := valid.depositMint.symm.trans holds.depositMint
  have floor := ran.floor
  rw [ran.payout_eq] at floor
  have atMint := redeem.shareMint
  rw [shareMint] at atMint
  have quoted := ran.redeem.quoted
  rw [← Bank.supply_of_lookup atMint] at quoted
  have atRecipient := valid.atRecipient
  rw [← valid.stored] at atRecipient
  have recipientKey := ran.recipientKey
  rw [← valid.stored] at recipientKey
  have recipientOwner := ran.recipientOwner
  rw [← valid.requestQueue] at recipientOwner
  have feeRecipient := redeem.feeRecipient
  rw [depositMint] at feeRecipient
  refine ⟨?_, feeRecipient, floor⟩
  constructor
  · exact of_decide_eq_true ran.eligible
  · exact WithdrawalRequest.isExpired_eq_false.mp ran.unexpired
  · exact ⟨recipient, atRecipient,
      requireValidRecipient_eq_ok.mpr ⟨ran.recipientMint, recipientKey, recipientOwner⟩⟩
  · exact ran.redeem.running
  · exact Chain.redeemQuote_eq_ok.mpr ⟨ran.redeem.total, quoted⟩
  · exact ran.redeem.some
  · exact ran.redeem.liquid

/-- What a live request's own accounts and its vault hold always passes the constraints of the redemption. -/
theorem Chain.Holds.redeem_valid (holds : c.Holds key r q v) {feeRecipientAccount : Pubkey}
    (feeAccount : c.FeeAccount v feeRecipientAccount) (finalizer : Pubkey) :
    ∃ m, (r.finalization key q v feeRecipientAccount finalizer).redeem.Valid c v m := by
  obtain ⟨m, d, atShare, atDeposit, authority, decimals, _⟩ := holds.vaultSound.backed.issued
  have reserve := holds.vaultSound.backed.reserve
  have formed := holds.vaultSound.formed
  have key := formed.key
  have shareMint := formed.shareMint
  have reserveKey : v.reserve = .vaultToken v.depositMint v.vaultVersion := rfl
  unfold Chain.FeeAccount at feeAccount
  rw [← holds.shareMint] at atShare shareMint
  rw [← holds.depositMint] at atDeposit reserve key shareMint reserveKey feeAccount
  exact ⟨m, holds.vault, key, reserveKey, reserve, holds.queueSound.escrows.assets, holds.queueSound.escrows.shares,
    feeAccount, atShare, shareMint, authority, ⟨d, atDeposit, decimals⟩⟩

theorem Chain.Holds.valid (holds : c.Holds key r q v) {feeRecipientAccount : Pubkey}
    (feeAccount : c.FeeAccount v feeRecipientAccount) (finalizer : Pubkey) {recipient escrow : TokenAccount}
    (atRecipient : c.bank.accounts.lookup r.recipientTokenAccount = some recipient)
    (atEscrow : c.bank.accounts.lookup q.escrowAssets = some escrow) :
    (r.finalization key q v feeRecipientAccount finalizer).Valid c q r recipient escrow := by
  obtain ⟨fee, atFee, _⟩ := feeAccount
  obtain ⟨shares, atShares, _⟩ := holds.queueSound.escrows.shares
  obtain ⟨reserve, atReserve, _⟩ := holds.vaultSound.backed.reserve
  exact ⟨holds.queue, holds.queueSound.formed.key, rfl, rfl, rfl, rfl, rfl, ⟨v, holds.vault⟩, ⟨reserve, atReserve⟩,
    ⟨fee, atFee⟩, ⟨shares, atShares⟩, atEscrow, holds.live, holds.requestSound.key, rfl, rfl, rfl, atRecipient⟩

/-- The queue of a request is the only one its vault can be attached to. -/
theorem Chain.Holds.gate (holds : c.Holds key r q v) : v.withdrawalQueue = none ∨ v.withdrawalQueue = some r.queue := by
  cases attached : v.withdrawalQueue with
  | none => exact Or.inl rfl
  | some queue =>
    rw [holds.vaultSound.formed.queue_key attached, holds.queueSound.formed.key]
    exact Or.inr rfl

/-- A request that is payable above its floor is paid, whoever the admitted caller is. -/
theorem Chain.Holds.finalizes (holds : c.Holds key r q v) (bank : c.bank.Sound) {feeRecipientAccount finalizer : Pubkey}
    {gross : Nat} (payable : c.Payable r q v gross) (feeAccount : c.FeeAccount v feeRecipientAccount)
    (admitted : r.mayFinalize finalizer) (floor : r.minAssetsOut ≤ q.payout v feeRecipientAccount gross) :
    ∃ recipient escrow escrow' m paid forwarded,
      FinalizeWithdrawal.Ran c (r.finalization key q v feeRecipientAccount finalizer) r.sequence q r recipient
        escrow escrow' v m gross (Redeem.feeOf gross v.withdrawalFee) paid forwarded := by
  have formed := holds.vaultSound.formed
  have sound := holds.queueSound
  obtain ⟨recipient, atRecipient, accepted⟩ := payable.recipient
  obtain ⟨recipientMint, recipientKey, recipientOwner⟩ := requireValidRecipient_eq_ok.mp accepted
  obtain ⟨escrow, atEscrow, escrowOwner, escrowMint⟩ := sound.escrows.assets
  have valid := holds.valid feeAccount finalizer atRecipient atEscrow
  obtain ⟨m, redeem⟩ := holds.redeem_valid feeAccount finalizer
  have atMint : c.bank.mints.lookup q.shareMint = some m := redeem.shareMint
  obtain ⟨total, quoted⟩ := Chain.redeemQuote_eq_ok.mp payable.quoted
  rw [← holds.shareMint, Bank.supply_of_lookup atMint] at quoted
  obtain ⟨counted, covered, _⟩ := WithdrawalQueue.closeRequest_eq_ok.mp (sound.counted.closes holds.live rfl)
  -- The escrow holds every pending share, so the burn succeeds.
  obtain ⟨shares, atShares, sharesOwner, sharesMint⟩ := sound.escrows.shares
  have pending : q.pendingShares ≤ shares.amount := by
    rw [← Bank.balance_of_lookup atShares]
    exact sound.covered
  have issued : shares.amount ≤ m.supply := by
    rw [← Bank.supply_of_lookup atMint, ← sharesMint]
    exact bank.amount_le atShares
  obtain ⟨burned, burns⟩ := Bank.burn_succeeds atShares atMint sharesMint sharesOwner
    (bank.undelegated atShares (sharesOwner ▸ sound.formed.derived)) (covered.trans pending)
    ((covered.trans pending).trans issued)
  have afforded := @Redeem.feeOf_le gross _ formed.fee
  have within : gross ≤ c.bank.balance v.reserve := payable.liquid.trans holds.vaultSound.solvent
  obtain ⟨paid, interactions⟩ := redeem.pays bank formed.derived burns
    (show Redeem.feeOf gross v.withdrawalFee + (gross - Redeem.feeOf gross v.withdrawalFee) ≤ _ by
      rw [Nat.add_sub_cancel' afforded]
      exact within)
  have charged := Redeem.fees_defined (payable.liquid.trans ((Nat.le_add_right _ _).trans total)) formed.fee
  have keeps := Redeem.interactions_keeps interactions
  obtain ⟨escrow', atEscrow', escrowOwner', escrowMint'⟩ := keeps.owned ⟨escrow, atEscrow, escrowOwner, escrowMint⟩
  obtain ⟨recipient', atRecipient', _, recipientMint'⟩ := keeps.owned ⟨recipient, atRecipient, rfl, recipientMint⟩
  have grows : escrow'.amount = escrow.amount + q.payout v feeRecipientAccount gross :=
    FinalizeWithdrawal.escrow_grows valid redeem interactions atEscrow' afforded
  obtain ⟨forwarded, forwards⟩ := (Redeem.interactions_sound bank interactions).pays
    ⟨escrow', atEscrow', escrowOwner', escrowMint'⟩ ⟨recipient', atRecipient', recipientMint'⟩ sound.formed.derived
    (show escrow'.amount - escrow.amount ≤ _ by
      rw [Bank.balance_of_lookup atEscrow']
      exact Nat.sub_le _ _)
  have redeemed : Redeem.Ran c (r.finalization key q v feeRecipientAccount finalizer).redeem r.shares 0 v m gross
      (Redeem.feeOf gross v.withdrawalFee) paid :=
    ⟨redeem, holds.requestSound.positive, payable.running, holds.gate, total, quoted, charged, afforded,
      Nat.zero_le _, payable.some, payable.liquid, interactions⟩
  exact ⟨recipient, escrow, escrow', m, paid, forwarded, valid, rfl, admitted, decide_eq_true payable.eligible,
    WithdrawalRequest.isExpired_eq_false.mpr payable.unexpired, recipientMint, recipientKey, recipientOwner, counted,
    covered, redeemed, atEscrow', grows ▸ Nat.le_add_right _ _,
    by rw [grows, Nat.add_sub_cancel_left]; exact floor, forwards⟩

theorem Chain.Holds.finalize_taken (holds : c.Holds key r q v) (bank : c.bank.Sound)
    {feeRecipientAccount finalizer : Pubkey} {gross : Nat} {expectedSequence : UInt64} (payable : c.Payable r q v gross)
    (feeAccount : c.FeeAccount v feeRecipientAccount) (admitted : r.mayFinalize finalizer)
    (signs : finalizer.canSign = true) (stamp : r.sequence = expectedSequence.toNat)
    (floor : r.minAssetsOut ≤ q.payout v feeRecipientAccount gross) :
    ∃ c', Step c (.queue (.finalizeWithdrawal (r.finalization key q v feeRecipientAccount finalizer)
      expectedSequence)) c' := by
  obtain ⟨recipient, escrow, escrow', m, paid, forwarded, ran⟩ := holds.finalizes bank payable feeAccount admitted floor
  rw [stamp] at ran
  have signed : ∀ a ∈ [finalizer], a.canSign = true := fun a member => List.mem_singleton.mp member ▸ signs
  exact ⟨_, .of_executed signed (FinalizeWithdrawal.handler_eq_ok.mpr
    ⟨q, r, recipient, escrow, escrow', v, m, gross, _, paid, forwarded, ran, rfl⟩)⟩

end Holds

end Upshift
