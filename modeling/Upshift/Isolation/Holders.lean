import Upshift.Isolation.Issuers
import Upshift.Isolation.Vaults
import Upshift.Queue.Equivalence
import Upshift.Queue.Schedule

namespace Upshift
open Guard KeyedStore History

/-- Nothing in a history is signed by `h`. -/
abbrev Silent (h : Pubkey) (history : List (Chain × Instruction)) : Prop := ∀ event ∈ history, h ∉ event.2.signers

/-- The request as it was made, due no later than before. -/
structure WithdrawalRequest.Stands (r r' : WithdrawalRequest) : Prop where
  same : r'.Same r
  sooner : r'.eligibleAt ≤ r.eligibleAt

/-- The finalization that a step is serves the request `r` at `key` on the terms it was signed for. -/
structure Chain.Serves (c : Chain) (i : Instruction) (c' : Chain) (key : Pubkey) (r : WithdrawalRequest) : Prop where
  finalizes : ∃ a expectedSequence, i = .queue (.finalizeWithdrawal a expectedSequence) ∧ a.request = key ∧
    r.mayFinalize a.finalizer
  due : c.clock ∈ r.window
  paid : c.bank.balance r.recipientTokenAccount + r.minAssetsOut ≤ c'.bank.balance r.recipientTokenAccount
  gone : c'.requests = c.requests.erase key

/-- What the holder at `h` has is still theirs later, or was served to them in between. An account is the holder's alone
while it has no delegate, no close authority and a mint without a permanent delegate. -/
structure Issued.HoldingsKept (w w' : Issued) (h : Pubkey) (between : List (Issued × WideInstruction)) : Prop where
  accounts : ∀ k t, w.chain.bank.accounts.lookup k = some t → t.owner = h → t.delegate = none →
    t.closeAuthority = none → w.chain.bank.Unseizable t.mint →
      ∃ t', w'.chain.bank.accounts.lookup k = some t' ∧ t'.mint = t.mint ∧ t'.owner = h ∧ t'.delegate = none ∧
        t'.closeAuthority = none ∧ t.amount ≤ t'.amount
  requests : ∀ key r, w.chain.requests.lookup key = some r → r.owner = h →
    (∃ r', w'.chain.requests.lookup key = some r' ∧ r.Stands r') ∨ ∃ event ∈ between, ∃ i r', event.2 = .system i ∧
      r.Stands r' ∧ event.1.chain.Serves i (event.1.chain.next i) key r'

theorem WithdrawalRequest.Stands.refl (r : WithdrawalRequest) : r.Stands r := ⟨.refl r, le_rfl⟩

theorem WithdrawalRequest.Stands.trans {r r' r'' : WithdrawalRequest} (first : r.Stands r') (second : r'.Stands r'') :
    r.Stands r'' := by
  have written : r'' = { r' with eligibleAt := r''.eligibleAt } := second.same
  have written' : r' = { r with eligibleAt := r'.eligibleAt } := first.same
  refine ⟨?_, second.sooner.trans first.sooner⟩
  rw [written, written']
  rfl

section Step
variable {c c' : Chain} {i : Instruction} {key : Pubkey} {r : WithdrawalRequest}

/-- Only addresses that cannot sign a transaction sign inside one. -/
theorem Step.derived_signers (taken : Step c i c') {a : Pubkey} (acts : a ∈ i.derivedSigners) : a.canSign = false := by
  have ran := taken.executed
  unfold Instruction.derivedSigners at acts
  split at acts
  · obtain ⟨_, _, _, _, _, spec, _⟩ := Deposit.handlerChecked_eq_ok.mp ran
    rw [List.mem_singleton.mp acts, spec.valid.key]
    rfl
  · obtain ⟨_, _, _, _, _, spec, _⟩ := Deposit.handlerChecked_eq_ok.mp ran
    rw [List.mem_singleton.mp acts, spec.valid.key]
    rfl
  · obtain ⟨_, _, _, _, _, spec, _⟩ := Redeem.handlerChecked_eq_ok.mp ran
    rw [List.mem_singleton.mp acts, spec.valid.key]
    rfl
  · obtain ⟨_, _, _, _, _, spec, _⟩ := Redeem.handlerChecked_eq_ok.mp ran
    rw [List.mem_singleton.mp acts, spec.valid.key]
    rfl
  · obtain ⟨_, _, _, _, _, spec, _⟩ := OperatorWithdraw.handler_eq_ok ran
    rw [List.mem_singleton.mp acts, spec.valid.key]
    rfl
  · obtain ⟨_, _, _, _, spec, _⟩ := OperatorDeposit.handler_eq_ok ran
    rw [List.mem_singleton.mp acts, spec.valid.key]
    rfl
  · obtain ⟨_, _, _, _, spec, _⟩ := CloseVault.handler_eq_ok ran
    rw [List.mem_singleton.mp acts, spec.key]
    rfl
  · obtain ⟨_, _, _, spec, _⟩ := CancelWithdrawal.handler_eq_ok.mp ran
    rw [List.mem_singleton.mp acts, spec.queueKey]
    rfl
  · obtain ⟨_, _, _, _, spec, _⟩ := SweepEscrowShares.handler_eq_ok.mp ran
    rw [List.mem_singleton.mp acts, spec.queueKey]
    rfl
  · obtain ⟨_, _, _, _, _, _, _, _, _, _, _, spec, _⟩ := FinalizeWithdrawal.handler_eq_ok.mp ran
    rcases List.mem_pair.mp acts with vault | queue
    · have key : a = .vaultState _ _ := vault.trans spec.redeem.valid.key
      rw [key]
      rfl
    · rw [queue, spec.valid.queueKey]
      rfl
  · cases acts

/-- An account that is its owner's alone loses nothing in a transaction that the owner does not sign. -/
theorem Step.account_kept (taken : Step c i c') {k : Pubkey} {t : TokenAccount}
    (found : c.bank.accounts.lookup k = some t) (sole : t.Sole) (signs : t.owner.canSign = true)
    (silent : t.owner ∉ i.signers) :
    ∃ t', c'.bank.accounts.lookup k = some t' ∧ t'.mint = t.mint ∧ t'.owner = t.owner ∧ t'.Sole ∧
      t.amount ≤ t'.amount := by
  have run : c.bank.Respects (fun a => a ∈ i.signers ∨ a ∈ i.derivedSigners) c'.bank :=
    taken.respects_of (fun _ => Or.inl) fun _ => Or.inr
  refine run.account found sole ?_
  rintro (signer | acts)
  · exact silent signer
  · cases signs.symm.trans (taken.derived_signers acts)

/-- A live request stands, is cancelled by its owner, or is served. -/
theorem Step.request_outcome (taken : Step c i c') (live : c.requests.lookup key = some r) :
    (∃ r', c'.requests.lookup key = some r' ∧ r.Stands r') ∨
      (∃ a expectedSequence, i = .queue (.cancelWithdrawal a expectedSequence) ∧ a.request = key ∧ r.owner = a.owner) ∨
      c.Serves i c' key r := by
  cases remains : c'.requests.lookup key with
  | some r' =>
    obtain ⟨same, kept | ⟨_, sooner, _⟩⟩ := taken.rescheduled live remains
    · exact Or.inl ⟨r', rfl, same, kept.le⟩
    · exact Or.inl ⟨r', rfl, same, sooner.le⟩
  | none =>
    refine Or.inr ?_
    have rewritten : ∀ {k r₀}, (c.requests.insert k r₀).lookup key = none → False := by
      intro k r₀ absent
      rw [lookup_insert_ite] at absent
      split at absent
      · cases absent
      · cases live.symm.trans absent
    have erased : ∀ {k}, (c.requests.erase k).lookup key = none → k = key := by
      intro k absent
      by_contra other
      cases ((Finmap.lookup_erase_ne (Ne.symm other)).trans live).symm.trans absent
    cases taken.request_move with
    | kept requests => cases live.symm.trans (requests ▸ remains)
    | opened => exact (rewritten remains).elim
    | expedited => exact (rewritten remains).elim
    | @cancelled a expectedSequence q r₀ returned label ran =>
      have here : a.request = key := erased remains
      subst here
      cases Option.some.inj (live.symm.trans ran.request)
      exact Or.inl ⟨a, expectedSequence, label, rfl, ran.owner⟩
    | @finalized a expectedSequence q r₀ recipient escrow escrow' v m assets fees paid forwarded label ran =>
      have here : a.request = key := erased remains
      subst here
      cases Option.some.inj (live.symm.trans ran.valid.request)
      exact Or.inr ⟨⟨a, expectedSequence, label, rfl, ran.admitted⟩,
        WithdrawalRequest.mem_window.mpr ⟨ran.eligible, ran.unexpired⟩,
        (Nat.add_le_add_left ran.floor _).trans ran.recipient_paid, rfl⟩

end Step

section Wide
variable {w w' : Issued} {x : WideInstruction}

/-- Nor does it lose anything to an issuer, where its mint has no permanent delegate. -/
theorem WideStep.account_kept (taken : WideStep w x w') {k : Pubkey} {t : TokenAccount}
    (found : w.chain.bank.accounts.lookup k = some t) (sole : t.Sole) (signs : t.owner.canSign = true)
    (unseizable : w.chain.bank.Unseizable t.mint) (silent : t.owner ∉ x.signers) :
    (∃ t', w'.chain.bank.accounts.lookup k = some t' ∧ t'.mint = t.mint ∧ t'.owner = t.owner ∧ t'.Sole ∧
      t.amount ≤ t'.amount) ∧ w'.chain.bank.Unseizable t.mint := by
  cases x with
  | system i =>
    have step := (WideStep.system_iff.mp taken).1
    exact ⟨step.account_kept found sole signs silent, unseizable.respects step.respects⟩
  | issuer i =>
    obtain ⟨_, spared⟩ := taken.issuer_spares
    exact ⟨⟨t, spared.account found unseizable, rfl, rfl, sole, le_rfl⟩, spared.unseizable unseizable⟩

theorem WideStep.run_keeps {between : List (Issued × WideInstruction)} (run : Run WideStep w between w') {k : Pubkey}
    {t : TokenAccount} (found : w.chain.bank.accounts.lookup k = some t) (sole : t.Sole)
    (signs : t.owner.canSign = true) (unseizable : w.chain.bank.Unseizable t.mint)
    (silent : ∀ event ∈ between, t.owner ∉ event.2.signers) :
    (∃ t', w'.chain.bank.accounts.lookup k = some t' ∧ t'.mint = t.mint ∧ t'.owner = t.owner ∧ t'.Sole ∧
      t.amount ≤ t'.amount) ∧ w'.chain.bank.Unseizable t.mint := by
  induction run with
  | start => exact ⟨⟨t, found, rfl, rfl, sole, le_rfl⟩, unseizable⟩
  | next _ taken ih =>
    obtain ⟨now, past⟩ := List.forall_mem_cons.mp silent
    obtain ⟨⟨t', found', mint', owner', sole', amount'⟩, unseizable'⟩ := ih past
    obtain ⟨⟨t'', found'', mint'', owner'', sole'', amount''⟩, unseizable''⟩ :=
      taken.account_kept found' sole' (owner' ▸ signs) (mint' ▸ unseizable') (owner' ▸ now)
    exact ⟨⟨t'', found'', mint''.trans mint', owner''.trans owner', sole'', amount'.trans amount''⟩,
      mint' ▸ unseizable''⟩

/-- A live request stands or was served, over a run that its owner does not sign. -/
theorem WideStep.run_outcome {between : List (Issued × WideInstruction)} (run : Run WideStep w between w') {key h : Pubkey}
    {r : WithdrawalRequest} (live : w.chain.requests.lookup key = some r) (owner : r.owner = h)
    (silent : ∀ event ∈ between, h ∉ event.2.signers) :
    (∃ r', w'.chain.requests.lookup key = some r' ∧ r.Stands r') ∨ ∃ event ∈ between, ∃ i r', event.2 = .system i ∧
      r.Stands r' ∧ event.1.chain.Serves i (event.1.chain.next i) key r' := by
  induction run with
  | start => exact Or.inl ⟨r, live, .refl r⟩
  | @next between t x u previous taken ih =>
    obtain ⟨now, past⟩ := List.forall_mem_cons.mp silent
    rcases ih past with ⟨r', live', stands⟩ | ⟨event, member, served⟩
    · cases x with
      | issuer i =>
        have same := congrArg Chain.requests taken.issuer_spares.1
        exact Or.inl ⟨r', same ▸ live', stands⟩
      | system i =>
        have step := (WideStep.system_iff.mp taken).1
        rcases step.request_outcome live' with ⟨r'', live'', stands'⟩ | ⟨a, n, label, _, cancels⟩ | serves
        · exact Or.inl ⟨r'', live'', stands.trans stands'⟩
        · have written : r' = { r with eligibleAt := r'.eligibleAt } := stands.same
          have signer : h = a.owner := by rw [← owner, ← cancels, written]
          subst label
          exact absurd (List.mem_singleton.mpr signer) now
        · refine Or.inr ⟨(t, .system i), List.mem_cons_self, i, r', rfl, stands, ?_⟩
          rw [step.next_eq]
          exact serves
    · exact Or.inr ⟨event, List.mem_cons_of_mem _ member, served⟩

end Wide

/-- Whatever everybody else does, the issuers of the mints included, a holder who signs nothing keeps every account that
is theirs alone, and every request until it is served on its own terms. -/
theorem silent_holdings_kept {w w' : Issued} {h : Pubkey} {between : List (Issued × WideInstruction)}
    (run : Run WideStep w between w') (signs : h.canSign = true)
    (silent : ∀ event ∈ between, h ∉ event.2.signers) : w.HoldingsKept w' h between := by
  constructor
  · intro k t found owner undelegated unclosable unseizable
    subst owner
    have sole : t.Sole := ⟨undelegated, unclosable, Pubkey.owned_of_canSign signs⟩
    obtain ⟨⟨t', found', mint', owner', sole', amount'⟩, _⟩ := WideStep.run_keeps run found sole signs unseizable silent
    exact ⟨t', found', mint', owner', sole'.undelegated, sole'.unclosable, amount'⟩
  · exact fun key r live owner => WideStep.run_outcome run live owner silent

namespace Sample

/-- A mint whose issuer can take back what it has given out. -/
def stablecoin : Pubkey := .key 30

/-- The issuer gives `user` its token, takes half of it back, and freezes the rest. The operator expedites the request of
`user`, and the admin finalizes it. -/
def serving : List WideInstruction :=
  [.system (.token (.initializeMint stablecoin .token2022 admin 6 (some admin) [.permanentDelegate])),
    .system (.token (.createAssociatedAccount user stablecoin)),
    .system (.token (.createAssociatedAccount admin stablecoin)),
    .system (.token (.mintTo stablecoin (.associatedToken user stablecoin) admin 1000)),
    .issuer (.transfer (.associatedToken user stablecoin) stablecoin (.associatedToken admin stablecoin) admin 500),
    .issuer (.freeze (.associatedToken user stablecoin) stablecoin admin),
    .system (.clock 1000),
    .system (.queue (.expediteRequest ⟨queue, vault, operator, request 7⟩ 1)),
    .system (.queue (.finalizeWithdrawal
      (requestOpened.finalization (request 7) queueOpened vaultOpened (wallet admin) admin) 1))]

def served : Issued := Issued.runAll ⟨queued, ∅⟩ serving

/-- All of it happens: half of what the issuer gave is gone, and the request is paid. -/
example : (Issued.events ⟨queued, ∅⟩ serving).length = 9 ∧
    served.chain.bank.balance (.associatedToken user stablecoin) = 500 ∧
      served.chain.requests.lookup (request 7) = none := by decide +kernel

end Sample

open Sample in
theorem served_holdings_kept :
    Issued.HoldingsKept ⟨queued, ∅⟩ served user (Issued.events ⟨queued, ∅⟩ serving) :=
  silent_holdings_kept (Issued.runAll_run ⟨queued, ∅⟩ serving) rfl (by decide +kernel)

end Upshift
