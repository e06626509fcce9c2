import Upshift.Chain

namespace Upshift
open Guard KeyedStore

/-- The accounts of both operator transfers. `operatorTokenAccount` is the destination of a
withdrawal and the source of a deposit. -/
structure OperatorTransfer where
  vaultState : Pubkey
  vaultDepositAta : Pubkey
  operatorTokenAccount : Pubkey
  depositMint : Pubkey
  operator : Pubkey
  subaccount : Option Pubkey
  deriving DecidableEq

/-- A registry entry under `seeds = [SUBACCOUNT_SEED, vault_state, subaccount.address]`. -/
def Chain.subaccountAt (c : Chain) (subaccount vaultState : Pubkey) : Result Subaccount := do
  let s ← fetch c.subaccounts subaccount (.anchor .accountNotInitialized)
  require (subaccount = .subaccount vaultState s.address) (.anchor .constraintSeeds)
  return s

def OperatorTransfer.entry (a : OperatorTransfer) (c : Chain) : Result (Option Subaccount) :=
  match a.subaccount with
  | none => return none
  | some key => do
    let s ← c.subaccountAt key a.vaultState
    return some s

/-- The vault, the operator's side of the transfer and the optional registry entry. -/
def OperatorTransfer.accounts (a : OperatorTransfer) (c : Chain) :
    Result (VaultState × TokenAccount × Option Subaccount) := do
  let v ← c.vaultAt a.vaultState a.depositMint
  let _ ← c.reserveAt a.vaultDepositAta a.vaultState a.depositMint v.vaultVersion
  let entry ← a.entry c
  let t ← c.associatedAccount a.operatorTokenAccount a.depositMint
    ((entry.map Subaccount.address).getD a.operator)
  require (v.operator = a.operator) (.vault .notOperator)
  return (v, t, entry)

/-- The registry after a transfer through the optional entry. -/
def OperatorTransfer.record (a : OperatorTransfer) (c : Chain) (s : Subaccount) :
    Store Pubkey Subaccount :=
  match a.subaccount with
  | none => c.subaccounts
  | some key => c.subaccounts.insert key s

/-- The registry after a withdrawal to the optional entry. -/
def OperatorTransfer.deploy (a : OperatorTransfer) (c : Chain) (entry : Option Subaccount) (amount : Nat) :
    Result (Store Pubkey Subaccount) :=
  match entry with
  | none => return c.subaccounts
  | some s => do
    let principal ← okOr (checkedAdd u64Max s.principal amount) (.vault .numberOverflow)
    return a.record c { s with principal := principal }

/-- An amount taken off a figure, but not below zero. The subtraction is a plain one in the source. -/
def takenOff (figure amount : Nat) : Result Nat :=
  if figure < amount then return 0 else okOr (checkedSub figure amount) .arithmetic

theorem takenOff_eq (figure amount : Nat) : takenOff figure amount = .ok (figure - amount) := by
  unfold takenOff
  split
  · rename_i short
    rw [Nat.sub_eq_zero_of_le short.le]
    rfl
  · rename_i covered
    exact okOr_eq_ok.mpr (checkedSub_eq_some.mpr ⟨not_lt.mp covered, rfl⟩)

theorem Chain.subaccountAt_eq_ok {c : Chain} {subaccount vaultState : Pubkey} {s : Subaccount} :
    c.subaccountAt subaccount vaultState = .ok s ↔
      c.subaccounts.lookup subaccount = some s ∧ subaccount = .subaccount vaultState s.address := by
  simp only [Chain.subaccountAt, bind_eq_ok, fetch_eq_ok, require_eq_ok, pure_eq_ok, exists_const]
  constructor
  · rintro ⟨s, found, key, rfl⟩
    exact ⟨found, key⟩
  · rintro ⟨found, key⟩
    exact ⟨s, found, key, rfl⟩

theorem OperatorTransfer.entry_eq_ok {a : OperatorTransfer} {c : Chain} {entry : Option Subaccount} :
    a.entry c = .ok entry ↔ a.subaccount = none ∧ entry = none ∨ ∃ key s, a.subaccount = some key ∧
      entry = some s ∧ c.subaccounts.lookup key = some s ∧ key = .subaccount a.vaultState s.address := by
  unfold OperatorTransfer.entry
  split
  · rename_i none
    simp only [none, pure_eq_ok, @eq_comm _ _ entry, true_and, reduceCtorEq, false_and, exists_false, or_false]
  · rename_i key named
    simp only [named, bind_eq_ok, Chain.subaccountAt_eq_ok, pure_eq_ok, reduceCtorEq, false_and, false_or,
      Option.some.injEq]
    constructor
    · rintro ⟨s, ⟨found, derived⟩, rfl⟩
      exact ⟨key, s, rfl, rfl, found, derived⟩
    · rintro ⟨_, s, rfl, rfl, found, derived⟩
      exact ⟨s, ⟨found, derived⟩, rfl⟩

theorem OperatorTransfer.accounts_fails {a : OperatorTransfer} {c : Chain} :
    FailsWith (fun e => e.OfAnchor ∨ e = .vault .notOperator) (a.accounts c) := by
  refine .bind (Chain.vaultAt_fails.weaken fun _ => Or.inl) fun _ _ => ?_
  refine .bind (Chain.reserveAt_fails.weaken fun _ => Or.inl) fun _ _ => ?_
  refine .bind ?_ fun entry _ => ?_
  · unfold OperatorTransfer.entry
    split
    · exact .pure _
    · refine .bind (.bind (fetch_fails fun _ => Or.inl ⟨_, rfl⟩) fun _ _ => ?_) fun _ _ => .pure _
      exact .bind (.require fun _ => Or.inl ⟨_, rfl⟩) fun _ _ => .pure _
  refine .bind (Chain.associatedAccount_fails.weaken fun _ => Or.inl) fun _ _ => ?_
  exact .bind (.require fun _ => Or.inr rfl) fun _ _ => .pure _

/-- What the account constraints establish; `t` is the operator's side of the transfer. -/
structure OperatorTransfer.Valid (a : OperatorTransfer) (c : Chain) (v : VaultState) (t : TokenAccount)
    (entry : Option Subaccount) : Prop where
  vault : c.vaults.lookup a.vaultState = some v
  key : a.vaultState = .vaultState a.depositMint v.vaultVersion
  reserveKey : a.vaultDepositAta = .vaultToken a.depositMint v.vaultVersion
  reserve : ∃ r, c.bank.accounts.lookup a.vaultDepositAta = some r ∧ r.owner = a.vaultState ∧
    r.mint = a.depositMint
  registered : a.subaccount = none ∧ entry = none ∨ ∃ key s, a.subaccount = some key ∧
    entry = some s ∧ c.subaccounts.lookup key = some s ∧ key = .subaccount a.vaultState s.address
  account : c.bank.accounts.lookup a.operatorTokenAccount = some t
  owner : t.owner = (entry.map Subaccount.address).getD a.operator
  mint : t.mint = a.depositMint
  associated : a.operatorTokenAccount =
    .associatedToken ((entry.map Subaccount.address).getD a.operator) a.depositMint
  operator : v.operator = a.operator

theorem OperatorTransfer.accounts_eq_ok {a : OperatorTransfer} {c : Chain} {v : VaultState} {t : TokenAccount}
    {entry : Option Subaccount} : a.accounts c = .ok (v, t, entry) → a.Valid c v t entry := by
  simp only [OperatorTransfer.accounts, bind_eq_ok, Chain.vaultAt_eq_ok, Chain.reserveAt_eq_ok,
    OperatorTransfer.entry_eq_ok, Chain.associatedAccount_eq_ok, require_eq_ok, pure_eq_ok, exists_const,
    Prod.mk.injEq]
  rintro ⟨v, ⟨vault, _, key⟩, reserve, ⟨reserveKey, atReserve⟩, entry, named, t, ⟨account, owner, mint,
    associated⟩, operator, rfl, rfl, rfl⟩
  exact ⟨vault, key, reserveKey, ⟨reserve, atReserve⟩, named, account, owner, mint, associated, operator⟩

def OperatorWithdraw.handler (c : Chain) (a : OperatorTransfer) (amount : Nat) : Result Chain := do
  let (v, dest, entry) ← a.accounts c
  require (0 < amount) (.vault .zeroAmount)
  require (v.requiresSubaccount = entry.isSome) (.vault .invalidSubaccount)
  require (∀ s ∈ entry, dest.delegate = some a.vaultState ∧
    min (s.principal + amount) u64Max ≤ dest.delegatedAmount) (.vault .subaccountDelegationMissing)
  let paid ← c.bank.transferChecked a.vaultDepositAta a.depositMint a.operatorTokenAccount a.vaultState
    amount
  let localAum ← takenOff v.localAum amount
  let deployedAum ← okOr (checkedAdd u64Max v.deployedAum amount) .arithmetic
  let deployedPrincipal ← okOr (checkedAdd u64Max v.deployedPrincipal amount) (.vault .numberOverflow)
  let subaccounts ← a.deploy c entry amount
  return { c with
    bank := paid
    vaults := c.vaults.insert a.vaultState
      { v with localAum := localAum, deployedAum := deployedAum, deployedPrincipal := deployedPrincipal }
    subaccounts := subaccounts }

/-- The vault pulls from a registered destination under its delegation; otherwise the operator
signs for its own account. -/
def OperatorDeposit.handler (c : Chain) (a : OperatorTransfer) (amount : Nat) : Result Chain := do
  let (v, source, entry) ← a.accounts c
  require (0 < amount) (.vault .zeroAmount)
  require (v.requiresSubaccount = entry.isSome) (.vault .invalidSubaccount)
  require (entry.isSome → source.delegate = some a.vaultState ∧ amount ≤ source.delegatedAmount)
    (.vault .subaccountDelegationMissing)
  let authority := if entry.isSome then a.vaultState else a.operator
  let paid ← c.bank.transferChecked a.operatorTokenAccount a.depositMint a.vaultDepositAta authority amount
  let deployedAum ← takenOff v.deployedAum amount
  let localAum ← okOr (checkedAdd u64Max v.localAum amount) .arithmetic
  let repaid := match entry with
    | some s => min amount s.principal
    | none => amount
  let subaccounts := match entry with
    | none => c.subaccounts
    | some s => a.record c { s with principal := s.principal - amount }
  return { c with
    bank := paid
    vaults := c.vaults.insert a.vaultState
      { v with localAum := localAum, deployedAum := deployedAum, deployedPrincipal := v.deployedPrincipal - repaid }
    subaccounts := subaccounts }

structure OperatorUpdateAum where
  vaultState : Pubkey
  depositMint : Pubkey
  operator : Pubkey
  deriving DecidableEq

/-- The `u32` limits are combined before they are widened; both products fit in `u128` for every
`u64` argument. -/
def OperatorUpdateAum.handler (c : Chain) (a : OperatorUpdateAum) (newAum : Nat) : Result Chain := do
  let v ← c.vaultAt a.vaultState a.depositMint
  require (v.operator = a.operator) (.vault .notOperator)
  let decreaseLimit ← okOr (checkedSub bpsDenominator v.aumDecreaseLimit) .arithmetic
  let increaseLimit ← okOr (checkedAdd u32Max bpsDenominator v.aumIncreaseLimit) .arithmetic
  let scaledNewAum ← okOr (checkedMul u128Max newAum bpsDenominator) .arithmetic
  let lower ← okOr (checkedMul u128Max decreaseLimit v.deployedAum) .arithmetic
  require (lower ≤ scaledNewAum) (.vault .aumDecreaseTooBig)
  let upper ← okOr (checkedMul u128Max increaseLimit v.deployedAum) .arithmetic
  require (scaledNewAum ≤ upper) (.vault .aumIncreaseTooBig)
  return { c with vaults := c.vaults.insert a.vaultState { v with deployedAum := newAum } }

/-- A successful operator withdrawal. -/
structure OperatorWithdraw.Ran (c : Chain) (a : OperatorTransfer) (amount : Nat) (v : VaultState)
    (dest : TokenAccount) (entry : Option Subaccount) (paid : Bank) (subaccounts : Store Pubkey Subaccount) :
    Prop where
  valid : a.Valid c v dest entry
  positive : 0 < amount
  registry : v.requiresSubaccount = entry.isSome
  delegation : ∀ s ∈ entry, dest.delegate = some a.vaultState ∧
    min (s.principal + amount) u64Max ≤ dest.delegatedAmount
  pays : c.bank.transferChecked a.vaultDepositAta a.depositMint a.operatorTokenAccount a.vaultState amount =
    .ok paid
  deployed : v.deployedAum + amount ≤ u64Max
  principal : v.deployedPrincipal + amount ≤ u64Max
  recorded : a.deploy c entry amount = .ok subaccounts

def OperatorWithdraw.after (c : Chain) (a : OperatorTransfer) (amount : Nat) (v : VaultState) (paid : Bank)
    (subaccounts : Store Pubkey Subaccount) : Chain :=
  { c with
    bank := paid
    vaults := c.vaults.insert a.vaultState
      { v with
        localAum := v.localAum - amount
        deployedAum := v.deployedAum + amount
        deployedPrincipal := v.deployedPrincipal + amount }
    subaccounts := subaccounts }

theorem OperatorWithdraw.handler_eq_ok {c c' : Chain} {a : OperatorTransfer} {amount : Nat}
    (ran : OperatorWithdraw.handler c a amount = .ok c') : ∃ v dest entry paid subaccounts,
      OperatorWithdraw.Ran c a amount v dest entry paid subaccounts ∧
        c' = OperatorWithdraw.after c a amount v paid subaccounts := by
  simp only [OperatorWithdraw.handler, bind_eq_ok, Prod.exists, require_eq_ok, okOr_eq_ok, checkedAdd_eq_some,
    takenOff_eq, Except.ok.injEq, pure_eq_ok, exists_const] at ran
  obtain ⟨v, dest, entry, accounts, positive, registry, delegation, paid, pays, _, rfl, _, ⟨deployed, rfl⟩, _,
    ⟨principal, rfl⟩, subaccounts, recorded, rfl⟩ := ran
  exact ⟨v, dest, entry, paid, subaccounts, ⟨OperatorTransfer.accounts_eq_ok accounts, positive, registry,
    delegation, pays, deployed, principal, recorded⟩, rfl⟩

/-- A successful operator deposit. -/
structure OperatorDeposit.Ran (c : Chain) (a : OperatorTransfer) (amount : Nat) (v : VaultState)
    (source : TokenAccount) (entry : Option Subaccount) (paid : Bank) : Prop where
  valid : a.Valid c v source entry
  positive : 0 < amount
  registry : v.requiresSubaccount = entry.isSome
  delegation : entry.isSome → source.delegate = some a.vaultState ∧ amount ≤ source.delegatedAmount
  pays : c.bank.transferChecked a.operatorTokenAccount a.depositMint a.vaultDepositAta
    (if entry.isSome then a.vaultState else a.operator) amount = .ok paid
  fits : v.localAum + amount ≤ u64Max

def OperatorDeposit.after (c : Chain) (a : OperatorTransfer) (amount : Nat) (v : VaultState)
    (entry : Option Subaccount) (paid : Bank) : Chain :=
  { c with
    bank := paid
    vaults := c.vaults.insert a.vaultState
      { v with
        localAum := v.localAum + amount
        deployedAum := v.deployedAum - amount
        deployedPrincipal := v.deployedPrincipal - match entry with
          | some s => min amount s.principal
          | none => amount }
    subaccounts := match entry with
      | none => c.subaccounts
      | some s => a.record c { s with principal := s.principal - amount } }

theorem OperatorDeposit.handler_eq_ok {c c' : Chain} {a : OperatorTransfer} {amount : Nat}
    (ran : OperatorDeposit.handler c a amount = .ok c') : ∃ v source entry paid,
      OperatorDeposit.Ran c a amount v source entry paid ∧ c' = OperatorDeposit.after c a amount v entry paid := by
  simp only [OperatorDeposit.handler, bind_eq_ok, Prod.exists, require_eq_ok, okOr_eq_ok, checkedAdd_eq_some,
    takenOff_eq, Except.ok.injEq, pure_eq_ok, exists_const] at ran
  obtain ⟨v, source, entry, accounts, positive, registry, delegation, paid, pays, _, rfl, _, ⟨fits, rfl⟩, rfl⟩ := ran
  exact ⟨v, source, entry, paid, ⟨OperatorTransfer.accounts_eq_ok accounts, positive, registry, delegation, pays,
    fits⟩, rfl⟩

/-- A successful report moves `deployedAum` within the configured limits. -/
structure OperatorUpdateAum.Ran (c : Chain) (a : OperatorUpdateAum) (newAum : Nat) (v : VaultState) : Prop where
  vault : c.vaults.lookup a.vaultState = some v
  key : a.vaultState = .vaultState a.depositMint v.vaultVersion
  operator : v.operator = a.operator
  decrease : v.aumDecreaseLimit ≤ bpsDenominator
  above : (bpsDenominator - v.aumDecreaseLimit) * v.deployedAum ≤ newAum * bpsDenominator
  below : newAum * bpsDenominator ≤ (bpsDenominator + v.aumIncreaseLimit) * v.deployedAum

def OperatorUpdateAum.after (c : Chain) (a : OperatorUpdateAum) (newAum : Nat) (v : VaultState) : Chain :=
  { c with vaults := c.vaults.insert a.vaultState { v with deployedAum := newAum } }

theorem OperatorUpdateAum.handler_eq_ok {c c' : Chain} {a : OperatorUpdateAum} {newAum : Nat}
    (ran : OperatorUpdateAum.handler c a newAum = .ok c') :
    ∃ v, OperatorUpdateAum.Ran c a newAum v ∧ c' = OperatorUpdateAum.after c a newAum v := by
  simp only [OperatorUpdateAum.handler, bind_eq_ok, Chain.vaultAt_eq_ok, require_eq_ok, okOr_eq_ok,
    checkedSub_eq_some, checkedAdd_eq_some, checkedMul_eq_some, pure_eq_ok, exists_const] at ran
  obtain ⟨v, ⟨vault, _, key⟩, operator, _, ⟨decrease, rfl⟩, _, ⟨_, rfl⟩, _, ⟨_, rfl⟩, _, ⟨_, rfl⟩, above, _,
    ⟨_, rfl⟩, below, rfl⟩ := ran
  exact ⟨v, ⟨vault, key, operator, decrease, above, below⟩, rfl⟩

end Upshift
