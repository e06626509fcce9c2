import Upshift.Queue.Gate
import Upshift.Vault.Principal

namespace Upshift
open Guard KeyedStore History

/-- A registration of `address` at the vault at `k`, by the vault's admin of that time. -/
def RegisteredIn (history : List (Chain × Instruction)) (k address : Pubkey) : Prop :=
  ∃ t a w, (t, .vault (.registerSubaccount a address)) ∈ history ∧ a.vaultState = k ∧
    t.vaults.lookup k = some w ∧ a.admin = w.admin

/-- The redemption an instruction makes, itself or by its call of the vault program, with the shares. -/
def Instruction.redemption (i : Instruction) (c : Chain) : Option (Redeem × Nat) :=
  match i with
  | .vault (.redeem a shares) => some (a, shares.toNat)
  | .vault (.redeemChecked a shares _) => some (a, shares.toNat)
  | .queue (.finalizeWithdrawal a _) => (c.requests.lookup a.request).map fun r => (a.redeem, r.shares)
  | _ => none

/-- A redemption of shares of the vault at `k`, direct or by its queue: the quote leaves the reserve for an
account of whoever redeems and for an account of the fee recipient. -/
structure Chain.PaidOut (c c' : Chain) (i : Instruction) (k : Pubkey) (v : VaultState) (a : Redeem)
    (shares assets : Nat) : Prop where
  call : i.redemption c = some (a, shares)
  vault : a.vaultState = k
  positive : 0 < shares
  burned : c'.bank.supply v.shareMint + shares = c.bank.supply v.shareMint
  quoted : c.redeemQuote v shares = .ok assets
  falls : c.bank.balance v.reserve ≤ c'.bank.balance v.reserve + assets
  receiver : ∃ t, c.bank.accounts.lookup a.senderTokenAccount = some t ∧ t.owner = a.signer
  feeAccount : c.FeeAccount v a.feeRecipientAccount
  moved : ∃ mid, Redeem.handler c a shares = .ok mid ∧
    c.Redeemed mid v a.senderShareAccount a.feeRecipientAccount a.senderTokenAccount shares assets ∧
      mid.bank.balance v.reserve = c'.bank.balance v.reserve

/-- Where a withdrawal by the operator may go: to the operator itself while nothing is registered, else to
the associated account of a registered address that delegates enough. -/
def Chain.Destination (c : Chain) (history : List (Chain × Instruction)) (k : Pubkey) (v : VaultState)
    (account : Pubkey) (amount : Nat) : Prop :=
  (∀ key s, c.subaccounts.lookup key = some s → s.vaultState ≠ k) ∧
      account = .associatedToken v.operator v.depositMint ∨
    ∃ s t, c.subaccounts.lookup (.subaccount k s.address) = some s ∧ s.vaultState = k ∧
      RegisteredIn history k s.address ∧ account = .associatedToken s.address v.depositMint ∧
        c.bank.accounts.lookup account = some t ∧ t.owner = s.address ∧ t.delegate = some k ∧
          s.principal + amount ≤ t.delegatedAmount

/-- A withdrawal by the vault's operator. -/
structure Chain.Deploys (c c' : Chain) (history : List (Chain × Instruction)) (i : Instruction) (k : Pubkey)
    (v : VaultState) (a : OperatorTransfer) (amount : UInt64) : Prop where
  label : i = .vault (.operatorWithdraw a amount)
  vault : a.vaultState = k
  operator : a.operator = v.operator
  falls : c'.bank.balance v.reserve + amount.toNat = c.bank.balance v.reserve
  arrives : c'.bank.balance a.operatorTokenAccount = c.bank.balance a.operatorTokenAccount + amount.toNat
  destination : c.Destination history k v a.operatorTokenAccount amount.toNat

section Outflow
variable {c c₀ c' : Chain} {i : Instruction} {k : Pubkey} {v : VaultState} {history : List (Chain × Instruction)}

theorem RegisteredIn.cons {address : Pubkey} (registered : RegisteredIn history k address)
    (event : Chain × Instruction) : RegisteredIn (event :: history) k address := by
  obtain ⟨t, a, w, member, rest⟩ := registered
  exact ⟨t, a, w, List.mem_cons_of_mem _ member, rest⟩

/-- A live entry was registered by the admin of its vault. -/
theorem live_registered (first : c₀.Genesis) (run : Run Step c₀ history c) {key : Pubkey} {s : Subaccount}
    (entry : c.subaccounts.lookup key = some s) : RegisteredIn history s.vaultState s.address := by
  induction run generalizing s with
  | start =>
    obtain ⟨upgradeAuthority, rfl⟩ := first
    cases entry
  | @next history t i u previous taken ih =>
    have entries := (Reachable.registry_sound ⟨c₀, history, first.initial, previous⟩).entries
    rcases taken.entry_source entries entry with ⟨s, principal, before, rfl⟩ | ⟨a, _, v, _, rfl, rfl, ran, rfl, rfl⟩
    · exact (ih before).cons _
    · exact ⟨t, a, v, List.mem_cons_self, rfl, ran.vault, ran.admin.symm⟩

/-- What a redemption pays out, whichever instruction makes it. -/
theorem Redeem.pays_out {a : Redeem} {shares minAssetsOut : Nat} {m : Mint} {assets fees : Nat} {paid : Bank}
    (ran : Redeem.Ran c a shares minAssetsOut v m assets fees paid) (formed : v.WellFormed a.vaultState)
    (call : i.redemption c = some (a, shares)) (supply : c'.bank.supply v.shareMint = paid.supply v.shareMint)
    (reserve : c'.bank.balance v.reserve = paid.balance v.reserve) :
    c.PaidOut c' i a.vaultState v a shares assets := by
  have direct : Redeem.Ran c a shares 0 v m assets fees paid := { ran with bounded := Nat.zero_le _ }
  obtain ⟨flow, burned⟩ := direct.redeemed formed
  obtain ⟨depositMint, shareMint, reserveKey⟩ :=
    formed.addresses ran.valid.key ran.valid.shareMintKey ran.valid.reserveKey
  have quoted := ran.quoted
  rw [← Bank.supply_of_lookup ran.valid.shareMint, ← shareMint] at quoted
  obtain ⟨t, atSender, sender, _⟩ := ran.valid.senderToken
  have apart : v.reserve ≠ a.senderShareAccount := reserveKey ▸ ran.valid.burner.symm
  have out := flow v.reserve
  rw [if_pos rfl, if_neg apart] at out
  have within : c.bank.balance v.reserve ≤ paid.balance v.reserve + assets := by
    change paid.balance v.reserve + assets + 0 = _ at out
    omega
  have feeAccount : c.FeeAccount v a.feeRecipientAccount := by
    rw [Chain.FeeAccount, depositMint]
    exact ran.valid.feeRecipient
  exact ⟨call, rfl, ran.positive, supply ▸ burned, Chain.redeemQuote_eq_ok.mpr ⟨ran.total, quoted⟩, reserve ▸ within,
    ⟨t, atSender, sender⟩, feeAccount,
    ⟨_, Redeem.handlerChecked_eq_ok.mpr ⟨v, m, assets, fees, paid, direct, rfl⟩, ⟨flow, burned⟩, reserve.symm⟩⟩

/-- Only a redemption is a redemption in the book. -/
theorem Instruction.action_redeem {shares : Nat} {feeReturned : Bool}
    (redeems : i.action c k = .redeem shares feeReturned) : i.redeemsFrom k := by
  unfold Instruction.action at redeems
  split at redeems
  all_goals try split at redeems
  all_goals try cases redeems
  all_goals exact decide_eq_true ‹_›

theorem Book.Step.reserve_falls {B B' : Book} {action : BookAction} (step : B.Step action B')
    (falls : B'.reserve < B.reserve) :
    (∃ shares feeReturned, action = .redeem shares feeReturned) ∨ ∃ amount, action = .withdraw amount := by
  cases step with
  | drift _ donated => exact absurd falls (Nat.not_lt.mpr donated)
  | deposit => exact absurd falls (Nat.not_lt.mpr (Nat.le_add_right _ _))
  | redeem => exact Or.inl ⟨_, _, rfl⟩
  | withdraw => exact Or.inr ⟨_, rfl⟩
  | restore => exact absurd falls (Nat.not_lt.mpr (Nat.le_add_right _ _))
  | report => exact absurd falls (Nat.lt_irrefl _)

theorem Step.reserve_falls (reach : Reachable c) (taken : Step c i c') (vault : c.vaults.lookup k = some v)
    (falls : c'.bank.balance v.reserve < c.bank.balance v.reserve) :
    i.redeemsFrom k ∨ ∃ a amount, i = .vault (.operatorWithdraw a amount) ∧ a.vaultState = k := by
  have sound := reach.vaults_sound k v vault
  rcases taken.vault_stays vault with ⟨v', vault'⟩ | ⟨a, m, closed, revoked, _, rfl, ran, rfl⟩
  · have step := taken.book reach.bank_sound sound.formed sound.backed vault vault'
    obtain ⟨depositMint, vaultVersion⟩ := (taken.formed vault vault' sound.formed).mint_eq sound.formed.key
    have reserve : v'.reserve = v.reserve := by
      rw [VaultState.reserve, VaultState.reserve, depositMint, vaultVersion]
    have less : (c'.book v').reserve < (c.book v).reserve := by
      simp only [Chain.book, reserve]
      exact falls
    rcases step.reserve_falls less with ⟨shares, feeReturned, redeems⟩ | ⟨amount, withdraws⟩
    · exact Or.inl (Instruction.action_redeem redeems)
    · exact Or.inr (Instruction.action_withdraw withdraws)
  · obtain ⟨t, atReserve, _, _, empty⟩ := ran.reserve
    have reserve := (sound.formed.addresses ran.key ran.shareMintKey ran.reserveKey).2.2
    rw [reserve, Bank.balance_of_lookup atReserve, empty] at falls
    exact absurd falls (Nat.not_lt_zero _)

theorem Step.pays_out (reach : Reachable c) (taken : Step c i c') (vault : c.vaults.lookup k = some v)
    (redeems : i.redeemsFrom k) : ∃ a shares assets, c.PaidOut c' i k v a shares assets := by
  have formed := (reach.vaults_sound k v vault).formed
  unfold Instruction.redeemsFrom at redeems
  split at redeems
  · cases of_decide_eq_true redeems
    obtain ⟨w, m, assets, fees, paid, ran, rfl⟩ := Redeem.handlerChecked_eq_ok.mp taken.executed
    cases Option.some.inj (vault.symm.trans ran.valid.vault)
    exact ⟨_, _, _, Redeem.pays_out ran formed rfl rfl rfl⟩
  · cases of_decide_eq_true redeems
    obtain ⟨w, m, assets, fees, paid, ran, rfl⟩ := Redeem.handlerChecked_eq_ok.mp taken.executed
    cases Option.some.inj (vault.symm.trans ran.valid.vault)
    exact ⟨_, _, _, Redeem.pays_out ran formed rfl rfl rfl⟩
  · cases of_decide_eq_true redeems
    obtain ⟨q, r, _, _, _, w, m, assets, fees, paid, forwarded, ran, rfl⟩ :=
      FinalizeWithdrawal.handler_eq_ok.mp taken.executed
    cases Option.some.inj (vault.symm.trans ran.redeem.valid.vault)
    have valid := ran.redeem.valid
    have reserve := (formed.addresses valid.key valid.shareMintKey valid.reserveKey).2.2
    refine ⟨_, _, _, Redeem.pays_out ran.redeem formed ?_ (Bank.transfer_supply ran.forwards _) ?_⟩
    · simp only [Instruction.redemption, ran.valid.request, Option.map_some]
    · rw [reserve]
      exact ran.reserve_kept
  · cases redeems

theorem Step.deploys (first : c₀.Genesis) (run : Run Step c₀ history c) {a : OperatorTransfer} {amount : UInt64}
    (taken : Step c (.vault (.operatorWithdraw a amount)) c') (vault : c.vaults.lookup a.vaultState = some v) :
    c.Deploys c' history (.vault (.operatorWithdraw a amount)) a.vaultState v a amount := by
  have reach : Reachable c := ⟨c₀, history, first.initial, run⟩
  have formed := (reach.vaults_sound _ v vault).formed
  have registry := reach.registry_sound
  obtain ⟨w, dest, entry, paid, subaccounts, ran, rfl⟩ := OperatorWithdraw.handler_eq_ok taken.executed
  have valid := ran.valid
  cases Option.some.inj (vault.symm.trans valid.vault)
  obtain ⟨depositMint, _, reserve⟩ := formed.addresses valid.key rfl valid.reserveKey
  have apart : a.vaultDepositAta ≠ a.operatorTokenAccount := by
    rw [valid.reserveKey, valid.associated]
    exact Pubkey.noConfusion
  have covered := Bank.transfer_covered ran.pays
  have out := Bank.transfer_flow ran.pays a.vaultDepositAta
  have arrived := Bank.transfer_flow ran.pays a.operatorTokenAccount
  rw [if_pos rfl, if_neg apart] at out
  rw [if_neg apart.symm, if_pos rfl] at arrived
  refine ⟨rfl, rfl, valid.operator.symm, by rw [reserve]; exact out, arrived, ?_⟩
  cases entry with
  | none =>
    refine Or.inl ⟨fun key s entry here => ?_, ?_⟩
    · obtain ⟨live, _⟩ := Chain.deployment_live entry here v
      have count := (registry.exact _ v vault).count
      have none : ¬0 < v.subaccountCount := of_decide_eq_false ran.registry
      simp only [Chain.deployment] at live count
      omega
    · rw [depositMint, valid.operator]
      exact valid.associated
  | some s =>
    obtain ⟨key, _, found, derived, here⟩ := valid.entry registry.entries
    obtain ⟨delegate, allowance⟩ := ran.delegation s rfl
    have recorded := ran.recorded
    simp only [OperatorTransfer.deploy, bind_eq_ok, okOr_eq_ok, checkedAdd_eq_some, pure_eq_ok] at recorded
    obtain ⟨_, ⟨fits, _⟩, _⟩ := recorded
    rw [min_eq_left fits] at allowance
    have registered := live_registered first run found
    rw [here] at registered
    rw [derived] at found
    exact Or.inr ⟨s, dest, found, here, registered, depositMint ▸ valid.associated, valid.account, valid.owner, delegate,
      allowance⟩

/-- Tokens leave a reserve in two ways only, and in one step never in both: a redemption of burned shares, or a
withdrawal by the operator to a permitted destination. -/
theorem reserve_outflow (first : c₀.Genesis) (run : Run Step c₀ history c) (taken : Step c i c')
    (vault : c.vaults.lookup k = some v) (falls : c'.bank.balance v.reserve < c.bank.balance v.reserve) :
    Xor (∃ a shares assets, c.PaidOut c' i k v a shares assets)
      (∃ a amount, c.Deploys c' history i k v a amount) := by
  have reach : Reachable c := ⟨c₀, history, first.initial, run⟩
  rcases taken.reserve_falls reach vault falls with redeems | ⟨a, amount, rfl, rfl⟩
  · refine Or.inl ⟨taken.pays_out reach vault redeems, ?_⟩
    rintro ⟨a, amount, deploys⟩
    rw [deploys.label] at redeems
    cases redeems
  · refine Or.inr ⟨⟨a, amount, taken.deploys first run vault⟩, ?_⟩
    rintro ⟨_, _, _, paidOut⟩
    cases paidOut.call

end Outflow

open Sample in
theorem registered_outflow :
    Xor (∃ a shares assets, registered.PaidOut (registered.next (.vault (.operatorWithdraw through 20000)))
        (.vault (.operatorWithdraw through 20000)) vault vaultRegistered a shares assets)
      (∃ a amount, registered.Deploys (registered.next (.vault (.operatorWithdraw through 20000)))
        ((Chain.genesis (some admin)).events (opening ++ registering)) (.vault (.operatorWithdraw through 20000)) vault
        vaultRegistered a amount) :=
  reserve_outflow ⟨_, rfl⟩ (Chain.runAll_run _ _) (.of_accepts (by decide +kernel)) registered_vault (by decide +kernel)

end Upshift
