import Upshift.Token.Grants
import Upshift.Vault.Principal

namespace Upshift
open Guard KeyedStore History

/-- What one destination owes and may still be asked for, with what was ever sent to it and what the admin
has written off. -/
structure Allowance where
  principal : Nat
  delegated : Nat
  withdrawn : Nat
  settled : Nat

/-- The life of an allowance that its owner leaves alone: returns consume it, withdrawals do not. -/
inductive Allowance.Step (A : Allowance) : Allowance → Prop
  | idle : Step A A
  | withdraw {amount} (covered : A.principal + amount ≤ A.delegated) :
      Step A ⟨A.principal + amount, A.delegated, A.withdrawn + amount, A.settled⟩
  | restore {amount} (granted : amount ≤ A.delegated) :
      Step A ⟨A.principal - amount, A.delegated - amount, A.withdrawn, A.settled⟩
  | settle {amount} (owed : amount ≤ A.principal) :
      Step A ⟨A.principal - amount, A.delegated, A.withdrawn, A.settled + amount⟩

/-- What is owed can be recalled, and only returns and settlements make room. -/
structure Allowance.Bounded (limit start : Nat) (A : Allowance) : Prop where
  covered : A.principal ≤ A.delegated
  room : A.withdrawn + start + A.delegated ≤ limit + A.settled + A.principal

theorem Allowance.Step.bounded {A A' : Allowance} {limit start : Nat} (step : A.Step A')
    (bounded : A.Bounded limit start) : A'.Bounded limit start := by
  obtain ⟨covered, room⟩ := bounded
  cases step with
  | idle => exact ⟨covered, room⟩
  | withdraw fits =>
    constructor
    · exact fits
    · simp only
      omega
  | restore granted => constructor <;> simp only <;> omega
  | settle owed => constructor <;> simp only <;> omega

/-- However often tokens went back and forth. -/
theorem Allowance.Bounded.withdrawn_le {A : Allowance} {limit start : Nat} (bounded : A.Bounded limit start) :
    A.withdrawn + start ≤ limit + A.settled := by
  obtain ⟨covered, room⟩ := bounded
  omega

/-- The registry entry an instruction names. -/
def Instruction.names : Instruction → Option Pubkey
  | .vault (.registerSubaccount a _) => some a.subaccount
  | .vault (.deregisterSubaccount a) => some a.subaccount
  | .vault (.settleSubaccountLoss a _) => some a.subaccount
  | .vault (.operatorWithdraw a _) => a.subaccount
  | .vault (.operatorDeposit a _) => a.subaccount
  | _ => none

/-- What an instruction withdraws to an entry, and what it writes off of it. -/
def Instruction.withdraws (key : Pubkey) : Instruction → Nat
  | .vault (.operatorWithdraw a amount) => if a.subaccount = some key then amount.toNat else 0
  | _ => 0

def Instruction.settles (key : Pubkey) : Instruction → Nat
  | .vault (.settleSubaccountLoss a amount) => if a.subaccount = key then amount.toNat else 0
  | _ => 0

def Instruction.redelegates (account : Pubkey) : Instruction → Bool
  | .token i => i.redelegates account
  | _ => false

def Instruction.deregisters (key : Pubkey) : Instruction → Bool
  | .vault (.deregisterSubaccount a) => a.subaccount = key
  | _ => false

section Step
variable {c c' : Chain} {i : Instruction} {k key account address mint : Pubkey} {vaultVersion : Nat}
  {v v' : VaultState} {s : Subaccount} {t : TokenAccount}

theorem Redeem.interactions_spares {a : Redeem} {b paid : Bank} {shares fees finalAmount : Nat}
    (signer : a.signer ≠ k) (reserve : a.vaultDepositAta ≠ account)
    (ran : a.interactions b shares fees finalAmount = .ok paid) : b.Spares account k paid := by
  obtain ⟨burned, paidFee, burn, fee, final⟩ := Redeem.interactions_eq_ok.mp ran
  exact ((Bank.burn_spares burn (Or.inr signer)).trans (Bank.transfer_spares fee (Or.inl reserve))).trans
    (Bank.transfer_spares final (Or.inl reserve))

theorem Bank.initAssociatedIfNeeded_spares {b b' : Bank} {account' mint authority : Pubkey}
    (ran : b.initAssociatedIfNeeded account' mint authority = .ok b') : b.Spares account k b' := by
  obtain ⟨_, created | ⟨rfl, _⟩⟩ := Bank.initAssociatedIfNeeded_eq_ok ran
  · exact Bank.initializeAccount_spares created
  · exact .refl b'

/-- A delegation to a vault is touched by its owner and by returns to that vault only. -/
theorem Step.spares (taken : Step c i c') (vaultKey : k = .vaultState mint vaultVersion)
    (accountKey : account = .associatedToken address mint) (kept : i.redelegates account = false)
    (apart : ∀ a amount, i = .vault (.operatorDeposit a amount) → a.vaultState = k → a.operatorTokenAccount ≠ account) :
    c.bank.Spares account k c'.bank := by
  have signed := taken.signed
  have derived : k.canSign = false := vaultKey ▸ rfl
  have reserve : ∀ {depositMint version}, Pubkey.vaultToken depositMint version ≠ account := by
    intro depositMint version
    rw [accountKey]
    exact Pubkey.noConfusion
  cases taken.move with
  | quiet _ bank => exact .of_accounts (congrArg Bank.accounts bank)
  | configured _ _ _ bank => exact .of_accounts (congrArg Bank.accounts bank)
  | detached _ _ _ bank => exact .of_accounts (congrArg Bank.accounts bank)
  | scheduled _ _ _ bank => exact .of_accounts (congrArg Bank.accounts bank)
  | attached | reported | registered | deregistered | settled | expedited => exact .of_accounts rfl
  | initialized _ ran =>
    exact (Bank.initializeMint_spares ran.creates).trans (Bank.initializeAccount_spares ran.reserves)
  | closed _ ran =>
    exact (Bank.closeAccount_spares ran.closes (ran.reserveKey ▸ reserve)).trans
      (Bank.setMintAuthority_spares ran.revokes)
  | deposited label ran =>
    obtain ⟨signers, _⟩ := Instruction.deposits_signers label
    have signer := Pubkey.ne_of_canSign (signed _ (signers ▸ List.mem_cons_self)) derived
    exact (Bank.transfer_spares ran.pays (Or.inr signer)).trans (Bank.mintTo_spares ran.mints)
  | redeemed label ran =>
    obtain ⟨signers, _⟩ := Instruction.redeems_signers label
    have signer := Pubkey.ne_of_canSign (signed _ (signers ▸ List.mem_cons_self)) derived
    exact Redeem.interactions_spares signer (ran.valid.reserveKey ▸ reserve) ran.interactions
  | withdrew _ ran => exact Bank.transfer_spares ran.pays (Or.inl (ran.valid.reserveKey ▸ reserve))
  | @returned a amount v source entry paid label ran =>
    subst label
    refine Bank.transfer_spares ran.pays ?_
    cases entry with
    | none => exact Or.inr (Pubkey.ne_of_canSign (signed _ List.mem_cons_self) derived)
    | some _ =>
      by_cases here : a.vaultState = k
      · exact Or.inl (apart a amount rfl here)
      · exact Or.inr here
  | opened _ ran =>
    exact (Bank.initAssociatedIfNeeded_spares ran.shares).trans (Bank.initAssociatedIfNeeded_spares ran.assets)
  | requested label ran =>
    subst label
    exact Bank.transfer_spares ran.escrows (Or.inr (Pubkey.ne_of_canSign (signed _ List.mem_cons_self) derived))
  | cancelled _ ran =>
    refine Bank.transfer_spares ran.returns (Or.inr ?_)
    rw [ran.queueKey, vaultKey]
    exact Pubkey.noConfusion
  | @finalized a _ _ _ _ _ _ _ _ _ _ _ _ _ ran =>
    have queue : a.queue ≠ k := by
      rw [ran.valid.queueKey, vaultKey]
      exact Pubkey.noConfusion
    exact (Redeem.interactions_spares queue (ran.redeem.valid.reserveKey ▸ reserve) ran.redeem.interactions).trans
      (Bank.transfer_spares ran.forwards (Or.inr queue))
  | swept _ ran =>
    refine Bank.transfer_spares ran.sweeps (Or.inr ?_)
    rw [ran.queueKey, vaultKey]
    exact Pubkey.noConfusion
  | banked label ran =>
    subst label
    exact Bank.execute_spares ran (fun a member => Pubkey.ne_of_canSign (signed a member) derived) kept

/-- An entry that a step does not name is left as it was. -/
theorem Step.entry_kept (taken : Step c i c') (other : i.names ≠ some key) :
    c'.subaccounts.lookup key = c.subaccounts.lookup key := by
  have apart : ∀ {key₀}, i.names = some key₀ → key ≠ key₀ := by
    intro key₀ named here
    exact other (here ▸ named)
  cases taken.registry_move with
  | kept subaccounts => rw [subaccounts]
  | registered label =>
    subst label
    exact Finmap.lookup_insert_of_ne _ (apart rfl)
  | deregistered label =>
    subst label
    exact Finmap.lookup_erase_ne (apart rfl)
  | settled label =>
    subst label
    exact Finmap.lookup_insert_of_ne _ (apart rfl)
  | withdrew label ran =>
    subst label
    rcases OperatorTransfer.deploy_eq_ok ran.recorded with ⟨_, rfl⟩ | ⟨s, rfl, rfl⟩
    · rfl
    · rcases ran.valid.registered with ⟨_, none⟩ | ⟨key₀, _, named, _⟩
      · cases none
      · rw [OperatorTransfer.record_of_named named]
        exact Finmap.lookup_insert_of_ne _ (apart named)
  | @returned a amount v source entry paid label ran =>
    subst label
    rcases ran.valid.registered with ⟨_, rfl⟩ | ⟨key₀, s₀, named, rfl, _⟩
    · rfl
    · exact (congrArg (Finmap.lookup key) (OperatorTransfer.record_of_named named)).trans
        (Finmap.lookup_insert_of_ne _ (apart named))

theorem Instruction.unnamed (other : i.names ≠ some key) : i.withdraws key = 0 ∧ i.settles key = 0 := by
  unfold Instruction.withdraws Instruction.settles
  constructor
  · split
    · exact if_neg other
    · rfl
  · split
    · exact if_neg fun here => other (congrArg some here)
    · rfl

/-- What `k` may still take from an account: nothing once the token program has cleared the delegate. -/
def TokenAccount.granted (t : TokenAccount) (k : Pubkey) : Nat := if t.delegate = some k then t.delegatedAmount else 0

theorem TokenAccount.SameGrant.granted {t' : TokenAccount} (same : t.SameGrant t') : t'.granted k = t.granted k := by
  obtain ⟨_, _, delegate, amount⟩ := same
  rw [TokenAccount.granted, TokenAccount.granted, delegate, amount]

/-- A debit by the delegate comes off its allowance, down to the exhausted one that is cleared. -/
theorem TokenAccount.spend_granted {spent : TokenAccount} {amount : Nat} (debit : t.spend k amount = .ok spent)
    (delegated : t.delegate = some k) : amount ≤ t.granted k ∧ spent.granted k = t.granted k - amount ∧
      spent.mint = t.mint ∧ spent.owner = t.owner ∧ spent.GrantedTo k := by
  rw [TokenAccount.spend, if_pos delegated] at debit
  simp only [bind_eq_ok, require_eq_ok, pure_eq_ok, exists_const] at debit
  obtain ⟨within, rfl⟩ := debit
  have before : t.granted k = t.delegatedAmount := if_pos delegated
  rw [before]
  by_cases exhausted : t.delegatedAmount - amount = 0
  · rw [if_pos exhausted, exhausted]
    exact ⟨within, rfl, rfl, rfl, Or.inr rfl⟩
  · rw [if_neg exhausted]
    exact ⟨within, if_pos delegated, rfl, rfl, Or.inl delegated⟩

/-- A live entry of the vault at `k`, over its address's associated account of `mint`, delegated to `k` if to
anybody. -/
structure Chain.Entrusted (c : Chain) (k address mint : Pubkey) (s : Subaccount) (t : TokenAccount) : Prop where
  entry : c.subaccounts.lookup (.subaccount k address) = some s
  vault : s.vaultState = k
  named : s.address = address
  account : c.bank.accounts.lookup (.associatedToken address mint) = some t
  owner : t.owner = address
  mint : t.mint = mint
  granted : t.GrantedTo k

/-- The allowance as one entry and its account record it. -/
def allowance (s : Subaccount) (t : TokenAccount) (k : Pubkey) (withdrawn settled : Nat) : Allowance :=
  ⟨s.principal, t.granted k, withdrawn, settled⟩

theorem Chain.Entrusted.spared (entrusted : c.Entrusted k address mint s t)
    (spares : c.bank.Spares (.associatedToken address mint) k c'.bank) {s' : Subaccount}
    (entry' : c'.subaccounts.lookup (.subaccount k address) = some s')
    (same : s'.vaultState = s.vaultState ∧ s'.address = s.address) :
    ∃ t', c'.Entrusted k address mint s' t' ∧ t'.granted k = t.granted k := by
  obtain ⟨t', account', kept⟩ := spares t entrusted.account entrusted.granted
  refine ⟨t', ⟨entry', same.1.trans entrusted.vault, same.2.trans entrusted.named, account',
    kept.2.1.trans entrusted.owner, kept.1.trans entrusted.mint, kept.grantedTo entrusted.granted⟩, kept.granted⟩

/-- An operator transfer through a live entry is one with that entry's account. -/
theorem OperatorTransfer.Valid.through {a : OperatorTransfer} {w : VaultState} {side : TokenAccount}
    {entry : Option Subaccount} (valid : a.Valid c w side entry) (entrusted : c.Entrusted k address mint s t)
    (vaultKey : k = .vaultState mint vaultVersion) (named : a.subaccount = some (.subaccount k address)) :
    entry = some s ∧ side = t ∧ a.vaultState = k ∧ a.operatorTokenAccount = .associatedToken address mint := by
  rcases valid.registered with ⟨absent, _⟩ | ⟨key, s₀, named', rfl, found, derived⟩
  · cases absent.symm.trans named
  cases Option.some.inj (named.symm.trans named')
  cases Option.some.inj (entrusted.entry.symm.trans found)
  simp only [Pubkey.subaccount.injEq] at derived
  have version := valid.key.symm.trans (derived.1.symm.trans vaultKey)
  simp only [Pubkey.vaultState.injEq] at version
  have account : a.operatorTokenAccount = .associatedToken address mint := by
    rw [valid.associated, version.1, derived.2]
    rfl
  exact ⟨rfl, Option.some.inj (valid.account.symm.trans (account ▸ entrusted.account)), derived.1.symm, account⟩

/-- While the registry has entries, a return from an entry's account names the entry. -/
theorem OperatorTransfer.Valid.names_entry {a : OperatorTransfer} {w : VaultState} {side : TokenAccount}
    {entry : Option Subaccount} (valid : a.Valid c w side entry) (registry : w.requiresSubaccount = entry.isSome)
    (sound : c.RegistrySound) (entrusted : c.Entrusted k address mint s t) (here : a.vaultState = k)
    (account : a.operatorTokenAccount = .associatedToken address mint) :
    a.subaccount = some (.subaccount k address) := by
  subst here
  rcases valid.registered with ⟨_, rfl⟩ | ⟨key, s₀, named, rfl, _, rfl⟩
  · obtain ⟨live, _⟩ := Chain.deployment_live entrusted.entry entrusted.vault w
    have count := (sound.exact a.vaultState w valid.vault).count
    have none : ¬0 < w.subaccountCount := of_decide_eq_false registry
    simp only [Chain.deployment] at live count
    omega
  · have same := valid.associated.symm.trans account
    simp only [Option.map_some, Option.getD_some, Pubkey.associatedToken.injEq] at same
    rw [named, same.1]

/-- A settlement of the entry writes off no more than it owes. -/
theorem SettleSubaccountLoss.Ran.allowance {a : SubaccountAdmin} {amount : Nat} {w : VaultState} {s₀ : Subaccount}
    {ata : TokenAccount} (ran : SettleSubaccountLoss.Ran c a amount w s₀ ata)
    (entrusted : c.Entrusted k address mint s t) (named : a.subaccount = .subaccount k address)
    (withdrawn settled : Nat) :
    ∃ s' t', (SettleSubaccountLoss.after c a amount w s₀).Entrusted k address mint s' t' ∧
      (allowance s t k withdrawn settled).Step (allowance s' t' k withdrawn (settled + amount)) := by
  cases Option.some.inj (entrusted.entry.symm.trans (named ▸ ran.entry))
  have shortfall := ran.shortfall
  have written : (SettleSubaccountLoss.after c a amount w s).subaccounts.lookup (.subaccount k address) =
      some { s with principal := s.principal - amount } := named ▸ Finmap.lookup_insert _
  have spares : c.bank.Spares (.associatedToken address mint) k (SettleSubaccountLoss.after c a amount w s).bank :=
    .of_accounts rfl
  obtain ⟨t', entrusted', granted⟩ := entrusted.spared spares written ⟨rfl, rfl⟩
  refine ⟨_, t', entrusted', ?_⟩
  rw [Upshift.allowance, Upshift.allowance, granted]
  exact .settle (by simp only; omega)

/-- A withdrawal to the entry finds what it will owe within its delegation. -/
theorem OperatorWithdraw.Ran.allowance {a : OperatorTransfer} {amount : Nat} {w : VaultState} {dest : TokenAccount}
    {entry : Option Subaccount} {paid : Bank} {subaccounts : Store Pubkey Subaccount}
    (ran : OperatorWithdraw.Ran c a amount w dest entry paid subaccounts) (entrusted : c.Entrusted k address mint s t)
    (vaultKey : k = .vaultState mint vaultVersion) (named : a.subaccount = some (.subaccount k address))
    (withdrawn settled : Nat) :
    ∃ s' t', (OperatorWithdraw.after c a amount w paid subaccounts).Entrusted k address mint s' t' ∧
      (allowance s t k withdrawn settled).Step (allowance s' t' k (withdrawn + amount) settled) := by
  obtain ⟨rfl, rfl, here, account⟩ := ran.valid.through entrusted vaultKey named
  obtain ⟨delegate, covered⟩ := ran.delegation s rfl
  have recorded := ran.recorded
  simp only [OperatorTransfer.deploy, OperatorTransfer.record_of_named named, bind_eq_ok, okOr_eq_ok,
    checkedAdd_eq_some, pure_eq_ok] at recorded
  obtain ⟨_, ⟨fits, rfl⟩, rfl⟩ := recorded
  rw [Nat.min_eq_left fits] at covered
  have apart : a.vaultDepositAta ≠ .associatedToken address mint := by
    rw [ran.valid.reserveKey]
    exact Pubkey.noConfusion
  have spares : c.bank.Spares (.associatedToken address mint) k paid := Bank.transfer_spares ran.pays (Or.inl apart)
  have written : (OperatorWithdraw.after c a amount w paid
      (c.subaccounts.insert (.subaccount k address) { s with principal := s.principal + amount })).subaccounts.lookup
        (.subaccount k address) = some { s with principal := s.principal + amount } := Finmap.lookup_insert _
  obtain ⟨t', entrusted', granted⟩ := entrusted.spared spares written ⟨rfl, rfl⟩
  have all : dest.granted k = dest.delegatedAmount := if_pos (here ▸ delegate)
  refine ⟨_, t', entrusted', ?_⟩
  rw [Upshift.allowance, Upshift.allowance, granted]
  exact .withdraw (by simp only; omega)

/-- A return from the entry's account is pulled under the delegation, and uses it up. -/
theorem OperatorDeposit.Ran.allowance {a : OperatorTransfer} {amount : Nat} {w : VaultState} {source : TokenAccount}
    {entry : Option Subaccount} {paid : Bank} (ran : OperatorDeposit.Ran c a amount w source entry paid)
    (entrusted : c.Entrusted k address mint s t) (vaultKey : k = .vaultState mint vaultVersion)
    (named : a.subaccount = some (.subaccount k address)) (withdrawn settled : Nat) :
    ∃ s' t', (OperatorDeposit.after c a amount w entry paid).Entrusted k address mint s' t' ∧
      (allowance s t k withdrawn settled).Step (allowance s' t' k withdrawn settled) := by
  obtain ⟨rfl, rfl, here, account⟩ := ran.valid.through entrusted vaultKey named
  obtain ⟨delegate, _⟩ := ran.delegation rfl
  have pays := ran.pays
  rw [Option.isSome_some, if_pos rfl, here, account] at pays
  rw [here] at delegate
  obtain ⟨src, dst, m, spent, atSource, _, _, _, _, _, debit, outcome⟩ := Bank.transferChecked_eq_ok.mp pays
  cases Option.some.inj (entrusted.account.symm.trans atSource)
  obtain ⟨within, left, sameMint, sameOwner, grant⟩ := TokenAccount.spend_granted debit delegate
  rcases outcome with ⟨same, _⟩ | ⟨different, _, rfl⟩
  · cases same.trans ran.valid.reserveKey
  · have written := (congrArg (Finmap.lookup (.subaccount k address)) (OperatorTransfer.record_of_named named)).trans
      (@Finmap.lookup_insert _ _ _ _ { s with principal := s.principal - amount } c.subaccounts)
    refine ⟨_, { spent with amount := source.amount - amount }, ⟨written, entrusted.vault, entrusted.named, ?_,
      sameOwner.trans entrusted.owner, sameMint.trans entrusted.mint, grant⟩, ?_⟩
    · exact (Finmap.lookup_insert_of_ne _ different).trans (Finmap.lookup_insert _)
    · have after : TokenAccount.granted { spent with amount := source.amount - amount } k =
          source.granted k - amount := left
      rw [Upshift.allowance, Upshift.allowance, after]
      exact .restore within

/-- Every step of the system is a step of each allowance that its owner leaves alone. -/
theorem Step.allowance (taken : Step c i c') (sound : c.RegistrySound) (vaultKey : k = .vaultState mint vaultVersion)
    (entrusted : c.Entrusted k address mint s t) (kept : i.redelegates (.associatedToken address mint) = false)
    (stays : i.deregisters (.subaccount k address) = false) (withdrawn settled : Nat) :
    ∃ s' t', c'.Entrusted k address mint s' t' ∧ (allowance s t k withdrawn settled).Step
      (allowance s' t' k (withdrawn + i.withdraws (.subaccount k address))
        (settled + i.settles (.subaccount k address))) := by
  by_cases names : i.names = some (.subaccount k address)
  · unfold Instruction.names at names
    split at names
    · obtain ⟨_, _, ran, rfl⟩ := RegisterSubaccount.handler_eq_ok taken.executed
      have fresh := ran.fresh
      rw [Option.some.inj names, entrusted.entry] at fresh
      cases fresh
    · exact absurd (Option.some.inj names) (of_decide_eq_false stays)
    · obtain ⟨w, s₀, ata, ran, rfl⟩ := SettleSubaccountLoss.handler_eq_ok taken.executed
      rw [Instruction.settles, if_pos (Option.some.inj names)]
      exact ran.allowance entrusted (Option.some.inj names) withdrawn settled
    · obtain ⟨w, dest, entry, paid, subaccounts, ran, rfl⟩ := OperatorWithdraw.handler_eq_ok taken.executed
      rw [Instruction.withdraws, if_pos names]
      exact ran.allowance entrusted vaultKey names withdrawn settled
    · obtain ⟨w, source, entry, paid, ran, rfl⟩ := OperatorDeposit.handler_eq_ok taken.executed
      exact ran.allowance entrusted vaultKey names withdrawn settled
    · cases names
  · have entry' := (taken.entry_kept names).trans entrusted.entry
    have spares := taken.spares vaultKey rfl kept fun a amount label here account => by
      subst label
      obtain ⟨w, source, entry, paid, ran, rfl⟩ := OperatorDeposit.handler_eq_ok taken.executed
      exact names (ran.valid.names_entry ran.registry sound entrusted here account)
    obtain ⟨t', entrusted', granted⟩ := entrusted.spared spares entry' ⟨rfl, rfl⟩
    obtain ⟨withdraws, settles⟩ := Instruction.unnamed names
    refine ⟨s, t', entrusted', ?_⟩
    rw [Upshift.allowance, Upshift.allowance, granted, withdraws, settles]
    exact .idle

end Step

end Upshift
