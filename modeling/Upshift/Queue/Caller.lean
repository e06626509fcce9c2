import Upshift.Queue.Equivalence

namespace Upshift
open Guard KeyedStore

/-- The amount a finalization transfers out of the asset escrow. -/
def FinalizeWithdrawal.forwarded (a : FinalizeWithdrawal) (c : Chain) : Result Nat := do
  let (_, r, _, escrowBefore) ← a.accounts c
  let (_, assets) ← a.payout c r.shares escrowBefore
  return assets

/-- Whatever the caller chooses, a finalization of the request at `key` that succeeds transfers the
same amount out of the asset escrow, to the recipient stored in the request. -/
def Chain.FinalizationsAgree (c : Chain) (key : Pubkey) (r : WithdrawalRequest) (q : WithdrawalQueue) : Prop :=
  ∀ a a' n n' c₁ c₂, a.request = key → a'.request = key → Step c (.queue (.finalizeWithdrawal a n)) c₁ →
    Step c (.queue (.finalizeWithdrawal a' n')) c₂ →
      a.forwarded c = a'.forwarded c ∧ a.escrowAssets = q.escrowAssets ∧ a'.escrowAssets = q.escrowAssets ∧
        a.recipientTokenAccount = r.recipientTokenAccount ∧ a'.recipientTokenAccount = r.recipientTokenAccount

/-- The queue is the fee recipient of its own vault and owns a second account for the fee, and the
request is payable with the fee taken. -/
structure Chain.FeeReturnable (c : Chain) (r : WithdrawalRequest) (q : WithdrawalQueue) (v : VaultState) : Prop where
  recipient : v.feeRecipient = r.queue
  charged : v.withdrawalFee ≠ 0
  second : ∃ account, account ≠ q.escrowAssets ∧ c.FeeAccount v account
  payable : ∃ gross, c.Payable r q v gross ∧ r.minAssetsOut ≤ gross - Redeem.feeOf gross v.withdrawalFee

theorem Redeem.feeOf_pos {gross withdrawalFee : Nat} (some : 0 < gross) (charged : withdrawalFee ≠ 0) :
    0 < Redeem.feeOf gross withdrawalFee := by
  have product := Nat.mul_pos some (Nat.pos_of_ne_zero charged)
  unfold Redeem.feeOf
  omega

theorem Redeem.feeOf_free (gross : Nat) : Redeem.feeOf gross 0 = 0 := by
  simp only [Redeem.feeOf, Nat.mul_zero]

theorem WithdrawalQueue.payout_free {q : WithdrawalQueue} {v : VaultState} (free : v.withdrawalFee = 0)
    (feeRecipientAccount : Pubkey) (gross : Nat) : q.payout v feeRecipientAccount gross = gross := by
  unfold WithdrawalQueue.payout
  rw [free, Redeem.feeOf_free]
  split
  · rfl
  · rfl

section Caller
variable {c c' : Chain} {key : Pubkey} {r : WithdrawalRequest} {q : WithdrawalQueue} {v : VaultState}

theorem FinalizeWithdrawal.Ran.forwarded {a : FinalizeWithdrawal} {expectedSequence : Nat}
    {recipient escrow escrow' : TokenAccount} {m : Mint} {gross fees : Nat} {paid forwarded : Bank}
    (ran : FinalizeWithdrawal.Ran c a expectedSequence q r recipient escrow escrow' v m gross fees paid forwarded) :
    a.forwarded c = .ok (q.payout v a.feeRecipientAccount gross) := by
  simp only [FinalizeWithdrawal.forwarded, FinalizeWithdrawal.payout, Redeem.handler, bind_eq_ok, Prod.exists,
    FinalizeWithdrawal.accounts_eq_ok, Redeem.handlerChecked_eq_ok, fetch_eq_ok, okOr_eq_ok, checkedSub_eq_some,
    pure_eq_ok, Prod.mk.injEq]
  exact ⟨q, r, recipient, escrow.amount, ⟨escrow, ran.valid, rfl⟩, _, _, ⟨_, ⟨v, _, gross, fees, paid, ran.redeem,
    rfl⟩, escrow', ran.atEscrow', _, ⟨ran.grew, rfl⟩, rfl, rfl⟩, ran.payout_eq⟩

/-- A finalization of a live request, seen from what it forwards. -/
theorem Chain.Holds.forwards {a : FinalizeWithdrawal} {n : UInt64} (holds : c.Holds key r q v)
    (here : a.request = key) (taken : Step c (.queue (.finalizeWithdrawal a n)) c') :
    ∃ gross, a.forwarded c = .ok (q.payout v a.feeRecipientAccount gross) ∧ c.Payable r q v gross ∧
      c.FeeAccount v a.feeRecipientAccount ∧ r.minAssetsOut ≤ q.payout v a.feeRecipientAccount gross ∧
      a.escrowAssets = q.escrowAssets ∧ a.recipientTokenAccount = r.recipientTokenAccount := by
  obtain ⟨q₀, r₀, recipient, escrow, escrow', v₀, m, gross, fees, paid, forwarded, ran, _⟩ :=
    FinalizeWithdrawal.handler_eq_ok.mp taken.executed
  obtain ⟨rfl, rfl, rfl, _⟩ := holds.forced here ran
  obtain ⟨payable, feeAccount, floor⟩ := holds.payable here ran
  exact ⟨gross, ran.forwarded, payable, feeAccount, floor, ran.valid.escrowAssets.symm, ran.valid.stored.symm⟩

/-- An accepted fee account that is the asset escrow, next to one that is not, lets the fee be returned. -/
theorem Chain.Holds.returnable (holds : c.Holds key r q v) {account : Pubkey} {gross : Nat}
    (charged : v.withdrawalFee ≠ 0) (escrow : c.FeeAccount v q.escrowAssets) (other : account ≠ q.escrowAssets)
    (feeAccount : c.FeeAccount v account) (payable : c.Payable r q v gross)
    (floor : r.minAssetsOut ≤ q.payout v account gross) : c.FeeReturnable r q v := by
  obtain ⟨t, atEscrow, owner, _⟩ := escrow
  obtain ⟨t', atEscrow', owner', _⟩ := holds.queueSound.escrows.assets
  cases Option.some.inj (atEscrow.symm.trans atEscrow')
  rw [WithdrawalQueue.payout, if_neg other] at floor
  exact ⟨owner.symm.trans owner', charged, ⟨account, other, feeAccount⟩, gross, payable, floor⟩

/-- Two successful finalizations forward the same amount unless the fee can be returned to the escrow. -/
theorem Chain.Holds.agree (holds : c.Holds key r q v) (apart : ¬c.FeeReturnable r q v) :
    c.FinalizationsAgree key r q := by
  intro a a' n n' c₁ c₂ here here' taken taken'
  obtain ⟨gross, forwards, payable, feeAccount, floor, escrow, recipient⟩ := holds.forwards here taken
  obtain ⟨gross', forwards', payable', feeAccount', floor', escrow', recipient'⟩ := holds.forwards here' taken'
  cases Except.ok.inj (payable.quoted.symm.trans payable'.quoted)
  refine ⟨?_, escrow, escrow', recipient, recipient'⟩
  rw [forwards, forwards']
  by_cases free : v.withdrawalFee = 0
  · rw [WithdrawalQueue.payout_free free, WithdrawalQueue.payout_free free]
  · by_cases first : a.feeRecipientAccount = q.escrowAssets
    · by_cases second : a'.feeRecipientAccount = q.escrowAssets
      · rw [first, second]
      · exact absurd (holds.returnable free (first ▸ feeAccount) second feeAccount' payable floor') apart
    · by_cases second : a'.feeRecipientAccount = q.escrowAssets
      · exact absurd (holds.returnable free (second ▸ feeAccount') first feeAccount payable floor) apart
      · simp only [WithdrawalQueue.payout, if_neg first, if_neg second]

/-- The caller controls neither the amount nor the destination of a payout, except where the queue is
its vault's fee recipient, a fee is charged and the queue owns an account besides its asset escrow: there the
finalization that names the escrow as the fee account forwards the fee as well. No account is frozen in these
runs (`plain_runs`). -/
theorem Reachable.finalizations_agree_iff (reach : Reachable c) (live : c.requests.lookup key = some r)
    (queue : c.queues.lookup r.queue = some q) (vault : c.vaults.lookup q.vaultState = some v) :
    c.FinalizationsAgree key r q ↔ ¬c.FeeReturnable r q v := by
  have holds := reach.holds live queue vault
  refine ⟨fun agree returnable => ?_, holds.agree⟩
  obtain ⟨account, other, feeAccount⟩ := returnable.second
  obtain ⟨gross, payable, floor⟩ := returnable.payable
  obtain ⟨t, atEscrow, owner, escrowMint⟩ := holds.queueSound.escrows.assets
  have escrow : c.FeeAccount v q.escrowAssets :=
    ⟨t, atEscrow, owner.trans returnable.recipient.symm, escrowMint.trans holds.depositMint⟩
  have whole : q.payout v q.escrowAssets gross = gross := if_pos rfl
  have net : q.payout v account gross = gross - Redeem.feeOf gross v.withdrawalFee := if_neg other
  have admitted : r.mayFinalize r.owner := by
    unfold WithdrawalRequest.mayFinalize
    exact if_pos rfl
  have signs := holds.requestSound.owner
  have stamp := (reach.stamp_fits live).symm
  obtain ⟨c₁, taken⟩ := holds.finalize_taken reach.bank_sound payable escrow admitted signs stamp
    (floor.trans ((Nat.sub_le _ _).trans whole.ge))
  obtain ⟨c₂, taken'⟩ := holds.finalize_taken reach.bank_sound payable feeAccount admitted signs stamp
    (floor.trans net.ge)
  obtain ⟨gross₁, forwards, payable₁, _⟩ := holds.forwards rfl taken
  obtain ⟨gross₂, forwards', payable₂, _⟩ := holds.forwards rfl taken'
  cases Except.ok.inj (payable.quoted.symm.trans payable₁.quoted)
  cases Except.ok.inj (payable.quoted.symm.trans payable₂.quoted)
  have same := Except.ok.inj ((forwards.symm.trans (agree _ _ _ _ _ _ rfl rfl taken taken').1).trans forwards')
  have charged := Redeem.feeOf_pos payable.some returnable.charged
  have amounts : gross = gross - Redeem.feeOf gross v.withdrawalFee := whole.symm.trans (same.trans net)
  have positive := payable.some
  omega

end Caller

open Sample in
theorem matured_finalizations_agree : matured.FinalizationsAgree (request 7) requestOpened queueOpened := by
  refine (Reachable.finalizations_agree_iff (Chain.runAll_reachable _ _) matured_request matured_queue
    matured_vault).mpr fun returnable => ?_
  exact absurd returnable.recipient (by decide)

namespace Sample

/-- The same request, with the queue as the fee recipient and a second account of its own. -/
def returning : List Instruction :=
  [.vault (.setFeeRecipient ⟨vault, mint, admin⟩ queue),
    .token (.initializeAccount (.key 9) mint queue),
    .vault (.setWithdrawalFee ⟨vault, mint, admin⟩ 10000),
    .clock 3600]

def returned : Chain := (Chain.genesis (some admin)).runAll (opening ++ queueing ++ returning)

def vaultReturned : VaultState := { vaultMatured with feeRecipient := queue }

/-- The finalization of the request with a given fee account. -/
def payingFeeTo (feeRecipientAccount : Pubkey) : FinalizeWithdrawal :=
  requestOpened.finalization (request 7) queueOpened vaultReturned feeRecipientAccount user

end Sample

open Sample in
/-- The same caller takes 50000 with the escrow as the fee account, and 49500 with another account. -/
theorem returned_finalizations_disagree :
    Reachable returned ∧ returned.requests.lookup (request 7) = some requestOpened ∧
      returned.queues.lookup queue = some queueOpened ∧
      (payingFeeTo escrowAssets).forwarded returned = .ok 50000 ∧
      (payingFeeTo (.key 9)).forwarded returned = .ok 49500 ∧
      ¬returned.FinalizationsAgree (request 7) requestOpened queueOpened := by
  have whole : (payingFeeTo escrowAssets).forwarded returned = .ok 50000 := by decide +kernel
  have net : (payingFeeTo (.key 9)).forwarded returned = .ok 49500 := by decide +kernel
  refine ⟨Chain.runAll_reachable _ _, by decide +kernel, by decide +kernel, whole, net, fun agree => ?_⟩
  have same := (agree (payingFeeTo escrowAssets) (payingFeeTo (.key 9)) 1 1 _ _ rfl rfl
    (.of_accepts (by decide +kernel)) (.of_accepts (by decide +kernel))).1
  cases Except.ok.inj ((whole.symm.trans same).trans net)

end Upshift
