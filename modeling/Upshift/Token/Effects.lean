import Upshift.Token.Bank

namespace Upshift
open Guard KeyedStore

theorem TokenAccount.spend_eq_ok {t spent : TokenAccount} {authority : Pubkey} {amount : Nat}
    (ran : t.spend authority amount = .ok spent) :
    spent.mint = t.mint ∧ spent.owner = t.owner ∧ spent.closeAuthority = t.closeAuthority ∧
      (t.delegate = none → spent.delegate = none) ∧ (t.delegate = some authority ∨ authority = t.owner) := by
  unfold TokenAccount.spend at ran
  split at ran
  · rename_i delegated
    simp only [bind_eq_ok, require_eq_ok, pure_eq_ok, exists_const] at ran
    obtain ⟨_, rfl⟩ := ran
    exact ⟨rfl, rfl, rfl, fun undelegated => by simp only [undelegated, ite_self], Or.inl delegated⟩
  · simp only [bind_eq_ok, require_eq_ok, pure_eq_ok, exists_const] at ran
    obtain ⟨owner, rfl⟩ := ran
    exact ⟨rfl, rfl, rfl, id, Or.inr owner⟩

/-- A burn rewrites an account as a debit does, or leaves it, where it is nobody's, as it is. -/
theorem TokenAccount.spendToBurn_eq_ok {t spent : TokenAccount} {authority : Pubkey} {amount : Nat}
    (ran : t.spendToBurn authority amount = .ok spent) :
    t.owner.ownerless = true ∧ spent = t ∨ t.spend authority amount = .ok spent := by
  unfold TokenAccount.spendToBurn at ran
  split at ran
  · rename_i free
    exact Or.inl ⟨free, (Except.ok.inj ran).symm⟩
  · exact Or.inr ran

theorem TokenAccount.spendToBurn_keeps {t spent : TokenAccount} {authority : Pubkey} {amount : Nat}
    (ran : t.spendToBurn authority amount = .ok spent) :
    spent.mint = t.mint ∧ spent.owner = t.owner ∧ spent.closeAuthority = t.closeAuthority ∧
      (t.delegate = none → spent.delegate = none) := by
  rcases TokenAccount.spendToBurn_eq_ok ran with ⟨_, rfl⟩ | debit
  · exact ⟨rfl, rfl, rfl, id⟩
  · obtain ⟨mint, owner, closer, undelegated, _⟩ := TokenAccount.spend_eq_ok debit
    exact ⟨mint, owner, closer, undelegated⟩

theorem TokenAccount.spend_fails {t : TokenAccount} {authority : Pubkey} {amount : Nat} :
    FailsWith (fun e => ∃ code, e = .token code) (t.spend authority amount) := by
  unfold TokenAccount.spend
  split
  · exact .bind (.require fun _ => ⟨_, rfl⟩) fun _ _ => .pure _
  · exact .bind (.require fun _ => ⟨_, rfl⟩) fun _ _ => .pure _

theorem TokenAccount.spend_owner {t : TokenAccount} (undelegated : t.delegate = none) (amount : Nat) :
    t.spend t.owner amount = .ok t := by
  simp only [TokenAccount.spend, undelegated, reduceCtorEq, if_false, bind_eq_ok, require_eq_ok, pure_eq_ok,
    exists_const, and_self]

theorem TokenAccount.spendToBurn_owner {t : TokenAccount} (undelegated : t.delegate = none) (amount : Nat) :
    t.spendToBurn t.owner amount = .ok t := by
  unfold TokenAccount.spendToBurn
  split
  · rfl
  · exact TokenAccount.spend_owner undelegated amount

theorem TokenAccount.spendToBurn_fails {t : TokenAccount} {authority : Pubkey} {amount : Nat} :
    FailsWith (fun e => ∃ code, e = .token code) (t.spendToBurn authority amount) := by
  unfold TokenAccount.spendToBurn
  split
  · exact .pure _
  · exact TokenAccount.spend_fails

theorem Bank.balance_of_lookup {b : Bank} {k : Pubkey} {t : TokenAccount}
    (found : b.accounts.lookup k = some t) : b.balance k = t.amount := by
  simp only [Bank.balance, found, Option.elim_some]

theorem Bank.supply_of_lookup {b : Bank} {k : Pubkey} {m : Mint}
    (found : b.mints.lookup k = some m) : b.supply k = m.supply := by
  simp only [Bank.supply, found, Option.elim_some]

/-- What nobody but its authorities can change about a mint. -/
def Mint.SameKind (m m' : Mint) : Prop :=
  m'.program = m.program ∧ m'.decimals = m.decimals ∧ m'.freezeAuthority = m.freezeAuthority ∧
    m'.extensions = m.extensions

theorem Mint.SameKind.refl (m : Mint) : m.SameKind m := ⟨rfl, rfl, rfl, rfl⟩

theorem Mint.SameKind.trans {m m' m'' : Mint} (first : m.SameKind m') (second : m'.SameKind m'') :
    m.SameKind m'' :=
  ⟨second.1.trans first.1, second.2.1.trans first.2.1, second.2.2.1.trans first.2.2.1,
    second.2.2.2.trans first.2.2.2⟩

/-- Every account stays with its mint and owner, and every mint with its authority. -/
structure Bank.Keeps (b b' : Bank) : Prop where
  account : ∀ {k t}, b.accounts.lookup k = some t →
    ∃ t', b'.accounts.lookup k = some t' ∧ t'.mint = t.mint ∧ t'.owner = t.owner
  mint : ∀ {k m}, b.mints.lookup k = some m →
    ∃ m', b'.mints.lookup k = some m' ∧ m.SameKind m' ∧ m'.mintAuthority = m.mintAuthority

theorem Bank.Keeps.refl (b : Bank) : b.Keeps b :=
  ⟨fun found => ⟨_, found, rfl, rfl⟩, fun found => ⟨_, found, .refl _, rfl⟩⟩

theorem Bank.Keeps.trans {b b' b'' : Bank} (first : b.Keeps b') (second : b'.Keeps b'') : b.Keeps b'' := by
  constructor
  · intro k t found
    obtain ⟨t', found', sameMint, sameOwner⟩ := first.account found
    obtain ⟨t'', found'', sameMint', sameOwner'⟩ := second.account found'
    exact ⟨t'', found'', sameMint'.trans sameMint, sameOwner'.trans sameOwner⟩
  · intro k m found
    obtain ⟨m', found', sameKind, sameAuthority⟩ := first.mint found
    obtain ⟨m'', found'', sameKind', sameAuthority'⟩ := second.mint found'
    exact ⟨m'', found'', sameKind.trans sameKind', sameAuthority'.trans sameAuthority⟩

/-- An account stays an account of its owner and mint. -/
theorem Bank.Keeps.owned {b b' : Bank} (keeps : b.Keeps b') {account owner mint : Pubkey}
    (found : ∃ t, b.accounts.lookup account = some t ∧ t.owner = owner ∧ t.mint = mint) :
    ∃ t, b'.accounts.lookup account = some t ∧ t.owner = owner ∧ t.mint = mint := by
  obtain ⟨t, found, sameOwner, sameMint⟩ := found
  obtain ⟨t', found', mint', owner'⟩ := keeps.account found
  exact ⟨t', found', owner'.trans sameOwner, mint'.trans sameMint⟩

/-- The exact outcome of a transfer: the checks, and the two accounts it rewrites. -/
theorem Bank.transferChecked_eq_ok {b b' : Bank} {source mint destination authority : Pubkey} {amount : Nat} :
    b.transferChecked source mint destination authority amount = .ok b' ↔
      ∃ src dst m spent, b.accounts.lookup source = some src ∧ b.accounts.lookup destination = some dst ∧
        b.mints.lookup mint = some m ∧ amount ≤ src.amount ∧ src.mint = mint ∧ dst.mint = mint ∧
        src.spend authority amount = .ok spent ∧
        (source = destination ∧ b' = b ∨ source ≠ destination ∧ dst.amount + amount ≤ u64Max ∧
          b' = ⟨b.mints, (b.accounts.insert source { spent with amount := src.amount - amount }).insert
            destination { dst with amount := dst.amount + amount }⟩) := by
  simp only [Bank.transferChecked, Bank.account, Bank.mint, bind_eq_ok, fetch_eq_ok, require_eq_ok,
    exists_and_left, exists_const]
  by_cases same : source = destination
  · simp only [same, if_true, pure_eq_ok, true_and, ne_eq, not_true, false_and, or_false, @eq_comm _ _ b']
  · simp only [same, if_false, bind_eq_ok, okOr_eq_ok, checkedAdd_eq_some, pure_eq_ok, false_and, ne_eq,
      not_false_iff, true_and, false_or, and_assoc, exists_and_left, exists_eq_left', @eq_comm _ _ b']

section Transfer
variable {b b' : Bank} {source mint destination authority : Pubkey} {amount : Nat}

theorem Bank.transfer_mints (ran : b.transferChecked source mint destination authority amount = .ok b') :
    b'.mints = b.mints := by
  obtain ⟨_, _, _, _, _, _, _, _, _, _, _, outcome⟩ := Bank.transferChecked_eq_ok.mp ran
  rcases outcome with ⟨_, rfl⟩ | ⟨_, _, rfl⟩ <;> rfl

theorem Bank.transfer_supply (ran : b.transferChecked source mint destination authority amount = .ok b')
    (k : Pubkey) : b'.supply k = b.supply k := by
  simp only [Bank.supply, Bank.transfer_mints ran]

theorem Bank.transfer_covered (ran : b.transferChecked source mint destination authority amount = .ok b') :
    amount ≤ b.balance source := by
  obtain ⟨_, _, _, _, atSource, _, _, covered, _⟩ := Bank.transferChecked_eq_ok.mp ran
  rw [Bank.balance_of_lookup atSource]
  exact covered

theorem Bank.transfer_fits (ran : b.transferChecked source mint destination authority amount = .ok b')
    (different : source ≠ destination) : b.balance destination + amount ≤ u64Max := by
  obtain ⟨_, _, _, _, _, atDestination, _, _, _, _, _, outcome⟩ := Bank.transferChecked_eq_ok.mp ran
  rw [Bank.balance_of_lookup atDestination]
  rcases outcome with ⟨same, _⟩ | ⟨_, fits, _⟩
  · exact absurd same different
  · exact fits

theorem Bank.transfer_keeps (ran : b.transferChecked source mint destination authority amount = .ok b') :
    b.Keeps b' := by
  refine ⟨fun {k t} found => ?_, fun found => ⟨_, Bank.transfer_mints ran ▸ found, .refl _, rfl⟩⟩
  obtain ⟨src, dst, _, spent, atSource, atDestination, _, _, _, _, debit, outcome⟩ :=
    Bank.transferChecked_eq_ok.mp ran
  rcases outcome with ⟨_, rfl⟩ | ⟨_, _, rfl⟩
  · exact ⟨t, found, rfl, rfl⟩
  · simp only [lookup_insert_ite]
    split
    · rename_i here
      subst here
      cases Option.some.inj (atDestination.symm.trans found)
      exact ⟨_, rfl, rfl, rfl⟩
    · split
      · rename_i here
        subst here
        cases Option.some.inj (atSource.symm.trans found)
        obtain ⟨sameMint, sameOwner, _⟩ := TokenAccount.spend_eq_ok debit
        exact ⟨_, rfl, sameMint, sameOwner⟩
      · exact ⟨t, found, rfl, rfl⟩

theorem Bank.transfer_balance (ran : b.transferChecked source mint destination authority amount = .ok b')
    (k : Pubkey) :
    b'.balance k = if source = destination then b.balance k
      else if k = destination then b.balance k + amount
      else if k = source then b.balance k - amount else b.balance k := by
  obtain ⟨src, dst, _, spent, atSource, atDestination, _, _, _, _, _, outcome⟩ :=
    Bank.transferChecked_eq_ok.mp ran
  rcases outcome with ⟨same, rfl⟩ | ⟨different, _, rfl⟩
  · simp only [same, if_true]
  · simp only [different, if_false, Bank.balance, lookup_insert_ite]
    split
    · rename_i here
      subst here
      simp only [atDestination, Option.elim_some]
    · split
      · rename_i here
        subst here
        simp only [atSource, Option.elim_some]
      · rfl

/-- A transfer takes from one account what it adds to the other, even when the two are one. -/
theorem Bank.transfer_flow (ran : b.transferChecked source mint destination authority amount = .ok b')
    (k : Pubkey) : b'.balance k + (if k = source then amount else 0) =
      b.balance k + (if k = destination then amount else 0) := by
  have covered := Bank.transfer_covered ran
  have moved := Bank.transfer_balance ran k
  by_cases same : source = destination
  · rw [moved, if_pos same, same]
  · rw [moved, if_neg same]
    by_cases received : k = destination
    · rw [if_pos received, if_pos received, if_neg (received ▸ Ne.symm same)]
      rfl
    · rw [if_neg received, if_neg received]
      by_cases sent : k = source
      · subst sent
        rw [if_pos rfl, if_pos rfl]
        omega
      · rw [if_neg sent, if_neg sent]

/-- The owner of an undelegated account can move any part of its balance that fits. -/
theorem Bank.transfer_succeeds {src dst : TokenAccount} {m : Mint}
    (atSource : b.accounts.lookup source = some src) (atDestination : b.accounts.lookup destination = some dst)
    (atMint : b.mints.lookup mint = some m) (sourceMint : src.mint = mint) (destinationMint : dst.mint = mint)
    (owner : src.owner = authority) (undelegated : src.delegate = none) (covered : amount ≤ src.amount)
    (fits : source ≠ destination → dst.amount + amount ≤ u64Max) :
    ∃ b', b.transferChecked source mint destination authority amount = .ok b' := by
  subst owner
  have debit := TokenAccount.spend_owner undelegated amount
  by_cases same : source = destination
  · exact ⟨b, Bank.transferChecked_eq_ok.mpr ⟨src, dst, m, src, atSource, atDestination, atMint, covered,
      sourceMint, destinationMint, debit, Or.inl ⟨same, rfl⟩⟩⟩
  · exact ⟨_, Bank.transferChecked_eq_ok.mpr ⟨src, dst, m, src, atSource, atDestination, atMint, covered,
      sourceMint, destinationMint, debit, Or.inr ⟨same, fits same, rfl⟩⟩⟩

/-- A refused transfer is an error of the token program. -/
theorem Bank.transfer_fails :
    FailsWith (fun e => ∃ code, e = .token code) (b.transferChecked source mint destination authority amount) := by
  refine .bind (fetch_fails fun _ => ⟨_, rfl⟩) fun src _ => ?_
  refine .bind (fetch_fails fun _ => ⟨_, rfl⟩) fun dst _ => ?_
  refine .bind (fetch_fails fun _ => ⟨_, rfl⟩) fun _ _ => ?_
  refine .bind (.require fun _ => ⟨_, rfl⟩) fun _ _ => ?_
  refine .bind (.require fun _ => ⟨_, rfl⟩) fun _ _ => ?_
  refine .bind (.require fun _ => ⟨_, rfl⟩) fun _ _ => ?_
  refine .bind TokenAccount.spend_fails fun spent _ => ?_
  split
  · exact .pure _
  · exact .bind (.okOr fun _ => ⟨_, rfl⟩) fun _ _ => .pure _

end Transfer

theorem Bank.mintToChecked_eq_ok {b b' : Bank} {mint account authority : Pubkey} {amount : Nat} :
    b.mintToChecked mint account authority amount = .ok b' ↔
      ∃ m dst, b.mints.lookup mint = some m ∧ b.accounts.lookup account = some dst ∧ dst.mint = mint ∧
        m.mintAuthority = some authority ∧ dst.amount + amount ≤ u64Max ∧ m.supply + amount ≤ u64Max ∧
        b' = ⟨b.mints.insert mint { m with supply := m.supply + amount },
          b.accounts.insert account { dst with amount := dst.amount + amount }⟩ := by
  simp only [Bank.mintToChecked, Bank.account, Bank.mint, bind_eq_ok, fetch_eq_ok, require_eq_ok, okOr_eq_ok,
    checkedAdd_eq_some, pure_eq_ok, exists_and_left, exists_const, and_assoc, exists_eq_left', @eq_comm _ _ b']
  constructor
  · rintro ⟨m, atMint, dst, atAccount, same, _, authorized, outcome⟩
    exact ⟨m, atMint, dst, atAccount, same, authorized, outcome⟩
  · rintro ⟨m, atMint, dst, atAccount, same, authorized, outcome⟩
    exact ⟨m, atMint, dst, atAccount, same, Option.isSome_of_eq_some authorized, authorized, outcome⟩

theorem Bank.burnChecked_eq_ok {b b' : Bank} {account mint authority : Pubkey} {amount : Nat} :
    b.burnChecked account mint authority amount = .ok b' ↔
      ∃ src m spent, b.accounts.lookup account = some src ∧ b.mints.lookup mint = some m ∧
        amount ≤ src.amount ∧ src.mint = mint ∧ src.spendToBurn authority amount = .ok spent ∧
        amount ≤ m.supply ∧ b' = ⟨b.mints.insert mint { m with supply := m.supply - amount },
          b.accounts.insert account { spent with amount := src.amount - amount }⟩ := by
  simp only [Bank.burnChecked, Bank.account, Bank.mint, bind_eq_ok, fetch_eq_ok, require_eq_ok, okOr_eq_ok,
    checkedSub_eq_some, pure_eq_ok, exists_and_left, exists_const, and_assoc, exists_eq_left', @eq_comm _ _ b']

section Issue
variable {b b' : Bank} {mint account authority : Pubkey} {amount : Nat}

theorem Bank.mintTo_keeps (ran : b.mintToChecked mint account authority amount = .ok b') : b.Keeps b' := by
  obtain ⟨m, dst, atMint, atAccount, _, _, _, _, rfl⟩ := Bank.mintToChecked_eq_ok.mp ran
  constructor
  · intro k t found
    simp only [lookup_insert_ite]
    split
    · rename_i here
      subst here
      cases Option.some.inj (atAccount.symm.trans found)
      exact ⟨_, rfl, rfl, rfl⟩
    · exact ⟨t, found, rfl, rfl⟩
  · intro k m' found
    simp only [lookup_insert_ite]
    split
    · rename_i here
      subst here
      cases Option.some.inj (atMint.symm.trans found)
      exact ⟨_, rfl, ⟨rfl, rfl, rfl, rfl⟩, rfl⟩
    · exact ⟨m', found, .refl m', rfl⟩

theorem Bank.mintTo_balance (ran : b.mintToChecked mint account authority amount = .ok b') (k : Pubkey) :
    b'.balance k = if k = account then b.balance k + amount else b.balance k := by
  obtain ⟨_, dst, _, atAccount, _, _, _, _, rfl⟩ := Bank.mintToChecked_eq_ok.mp ran
  simp only [Bank.balance, lookup_insert_ite]
  split
  · rename_i here
    subst here
    simp only [atAccount, Option.elim_some]
  · rfl

theorem Bank.mintTo_supply (ran : b.mintToChecked mint account authority amount = .ok b') (k : Pubkey) :
    b'.supply k = if k = mint then b.supply k + amount else b.supply k := by
  obtain ⟨m, _, atMint, _, _, _, _, _, rfl⟩ := Bank.mintToChecked_eq_ok.mp ran
  simp only [Bank.supply, lookup_insert_ite]
  split
  · rename_i here
    subst here
    simp only [atMint, Option.elim_some]
  · rfl

theorem Bank.burn_keeps (ran : b.burnChecked account mint authority amount = .ok b') : b.Keeps b' := by
  obtain ⟨src, m, spent, atAccount, atMint, _, _, debit, _, rfl⟩ := Bank.burnChecked_eq_ok.mp ran
  constructor
  · intro k t found
    simp only [lookup_insert_ite]
    split
    · rename_i here
      subst here
      cases Option.some.inj (atAccount.symm.trans found)
      obtain ⟨sameMint, sameOwner, _⟩ := TokenAccount.spendToBurn_keeps debit
      exact ⟨_, rfl, sameMint, sameOwner⟩
    · exact ⟨t, found, rfl, rfl⟩
  · intro k m' found
    simp only [lookup_insert_ite]
    split
    · rename_i here
      subst here
      cases Option.some.inj (atMint.symm.trans found)
      exact ⟨_, rfl, ⟨rfl, rfl, rfl, rfl⟩, rfl⟩
    · exact ⟨m', found, .refl m', rfl⟩

theorem Bank.burn_balance (ran : b.burnChecked account mint authority amount = .ok b') (k : Pubkey) :
    b'.balance k = if k = account then b.balance k - amount else b.balance k := by
  obtain ⟨src, _, _, atAccount, _, _, _, _, _, rfl⟩ := Bank.burnChecked_eq_ok.mp ran
  simp only [Bank.balance, lookup_insert_ite]
  split
  · rename_i here
    subst here
    simp only [atAccount, Option.elim_some]
  · rfl

theorem Bank.burn_supply (ran : b.burnChecked account mint authority amount = .ok b') (k : Pubkey) :
    b'.supply k = if k = mint then b.supply k - amount else b.supply k := by
  obtain ⟨_, m, _, _, atMint, _, _, _, _, rfl⟩ := Bank.burnChecked_eq_ok.mp ran
  simp only [Bank.supply, lookup_insert_ite]
  split
  · rename_i here
    subst here
    simp only [atMint, Option.elim_some]
  · rfl

theorem Bank.burn_covered (ran : b.burnChecked account mint authority amount = .ok b') :
    amount ≤ b.balance account ∧ amount ≤ b.supply mint := by
  obtain ⟨_, _, _, atAccount, atMint, covered, _, _, within, rfl⟩ := Bank.burnChecked_eq_ok.mp ran
  rw [Bank.balance_of_lookup atAccount, Bank.supply_of_lookup atMint]
  exact ⟨covered, within⟩

/-- The owner of an undelegated account can burn any part of its balance. -/
theorem Bank.burn_flow (ran : b.burnChecked account mint authority amount = .ok b') (k : Pubkey) :
    b'.balance k + (if k = account then amount else 0) = b.balance k := by
  have covered := (Bank.burn_covered ran).1
  rw [Bank.burn_balance ran]
  split
  · rename_i here
    subst here
    omega
  · rfl

theorem Bank.burn_succeeds {src : TokenAccount} {m : Mint} (atAccount : b.accounts.lookup account = some src)
    (atMint : b.mints.lookup mint = some m) (sameMint : src.mint = mint) (owner : src.owner = authority)
    (undelegated : src.delegate = none) (covered : amount ≤ src.amount) (within : amount ≤ m.supply) :
    ∃ b', b.burnChecked account mint authority amount = .ok b' := by
  subst owner
  exact ⟨_, Bank.burnChecked_eq_ok.mpr ⟨src, m, src, atAccount, atMint, covered, sameMint,
    TokenAccount.spendToBurn_owner undelegated amount, within, rfl⟩⟩

theorem Bank.burn_fails :
    FailsWith (fun e => ∃ code, e = .token code) (b.burnChecked account mint authority amount) := by
  refine .bind (fetch_fails fun _ => ⟨_, rfl⟩) fun _ _ => ?_
  refine .bind (fetch_fails fun _ => ⟨_, rfl⟩) fun _ _ => ?_
  refine .bind (.require fun _ => ⟨_, rfl⟩) fun _ _ => ?_
  refine .bind (.require fun _ => ⟨_, rfl⟩) fun _ _ => ?_
  refine .bind TokenAccount.spendToBurn_fails fun _ _ => ?_
  exact .bind (.okOr fun _ => ⟨_, rfl⟩) fun _ _ => .pure _

end Issue

section Owner
variable {b b' : Bank} {account owner : Pubkey}

theorem Bank.approve_eq_ok {delegate : Pubkey} {amount : Nat} :
    b.approve account delegate owner amount = .ok b' ↔
      ∃ t, b.accounts.lookup account = some t ∧ owner = t.owner ∧ b' = ⟨b.mints, b.accounts.insert account
        { t with delegate := some delegate, delegatedAmount := amount }⟩ := by
  simp only [Bank.approve, Bank.account, bind_eq_ok, fetch_eq_ok, require_eq_ok, pure_eq_ok, exists_const,
    @eq_comm _ _ b']

theorem Bank.revoke_eq_ok :
    b.revoke account owner = .ok b' ↔
      ∃ t, b.accounts.lookup account = some t ∧ owner = t.owner ∧ b' = ⟨b.mints, b.accounts.insert account
        { t with delegate := none, delegatedAmount := 0 }⟩ := by
  simp only [Bank.revoke, Bank.account, bind_eq_ok, fetch_eq_ok, require_eq_ok, pure_eq_ok, exists_const,
    @eq_comm _ _ b']

theorem Bank.setAccountOwner_eq_ok {newOwner : Pubkey} :
    b.setAccountOwner account newOwner owner = .ok b' ↔
      ∃ t, b.accounts.lookup account = some t ∧ owner = t.owner ∧ b' = ⟨b.mints, b.accounts.insert account
        { t with owner := newOwner, delegate := none, delegatedAmount := 0 }⟩ := by
  simp only [Bank.setAccountOwner, Bank.account, bind_eq_ok, fetch_eq_ok, require_eq_ok, pure_eq_ok,
    exists_const, @eq_comm _ _ b']

theorem Bank.setCloseAuthority_eq_ok {authority : Pubkey} {newAuthority : Option Pubkey} :
    b.setCloseAuthority account authority newAuthority = .ok b' ↔
      ∃ t, b.accounts.lookup account = some t ∧ authority = t.closer ∧ b' = ⟨b.mints, b.accounts.insert account
        { t with closeAuthority := newAuthority }⟩ := by
  simp only [Bank.setCloseAuthority, Bank.account, bind_eq_ok, fetch_eq_ok, require_eq_ok, pure_eq_ok,
    exists_const, @eq_comm _ _ b']

theorem Bank.closeAccount_eq_ok {authority : Pubkey} :
    b.closeAccount account authority = .ok b' ↔
      ∃ t, b.accounts.lookup account = some t ∧ t.amount = 0 ∧
        (t.owner.ownerless = true ∨ authority = t.closer) ∧ b' = ⟨b.mints, b.accounts.erase account⟩ := by
  simp only [Bank.closeAccount, Bank.account, bind_eq_ok, fetch_eq_ok, require_eq_ok, pure_eq_ok,
    exists_const, @eq_comm _ _ b']

theorem Bank.setMintAuthority_eq_ok {mint authority : Pubkey} {newAuthority : Option Pubkey} :
    b.setMintAuthority mint authority newAuthority = .ok b' ↔
      ∃ m, b.mints.lookup mint = some m ∧ m.mintAuthority = some authority ∧
        b' = ⟨b.mints.insert mint { m with mintAuthority := newAuthority }, b.accounts⟩ := by
  simp only [Bank.setMintAuthority, Bank.mint, bind_eq_ok, fetch_eq_ok, require_eq_ok, pure_eq_ok,
    exists_const, @eq_comm _ _ b']
  constructor
  · rintro ⟨m, atMint, _, authorized, outcome⟩
    exact ⟨m, atMint, authorized, outcome⟩
  · rintro ⟨m, atMint, authorized, outcome⟩
    exact ⟨m, atMint, Option.isSome_of_eq_some authorized, authorized, outcome⟩

end Owner

section Creation
variable {b b' : Bank}

theorem Bank.initializeAccount_eq_ok {account mint owner : Pubkey} :
    b.initializeAccount account mint owner = .ok b' ↔
      (∃ m, b.mints.lookup mint = some m) ∧ b.vacant account ∧ b' = ⟨b.mints, b.accounts.insert account
        { mint := mint, owner := owner, amount := 0, delegate := none, delegatedAmount := 0,
          closeAuthority := none }⟩ := by
  simp only [Bank.initializeAccount, Bank.mint, bind_eq_ok, fetch_eq_ok, require_eq_ok, pure_eq_ok,
    exists_const, exists_and_right, @eq_comm _ _ b']

theorem Bank.initializeMint_eq_ok {mint : Pubkey} {program : TokenProgram} {authority : Option Pubkey}
    {decimals : Nat} {freezeAuthority : Option Pubkey} {extensions : List ExtensionType} :
    b.initializeMint mint program authority decimals freezeAuthority extensions = .ok b' ↔
      b.vacant mint ∧ b' = ⟨b.mints.insert mint
        { program := program, mintAuthority := authority, supply := 0, decimals := decimals,
          freezeAuthority := freezeAuthority, extensions := extensions }, b.accounts⟩ := by
  simp only [Bank.initializeMint, bind_eq_ok, require_eq_ok, pure_eq_ok, exists_const, @eq_comm _ _ b']

theorem Bank.initializeAccount_keeps {account mint owner : Pubkey}
    (ran : b.initializeAccount account mint owner = .ok b') : b.Keeps b' := by
  obtain ⟨_, ⟨_, fresh⟩, rfl⟩ := Bank.initializeAccount_eq_ok.mp ran
  refine ⟨fun {k t} found => ?_, fun found => ⟨_, found, .refl _, rfl⟩⟩
  have different : k ≠ account := by
    rintro rfl
    cases fresh.symm.trans found
  exact ⟨t, (Finmap.lookup_insert_of_ne _ different).trans found, rfl, rfl⟩

theorem Bank.initializeMint_keeps {mint : Pubkey} {program : TokenProgram} {authority : Option Pubkey}
    {decimals : Nat} {freezeAuthority : Option Pubkey} {extensions : List ExtensionType}
    (ran : b.initializeMint mint program authority decimals freezeAuthority extensions = .ok b') :
    b.Keeps b' := by
  obtain ⟨⟨fresh, _⟩, rfl⟩ := Bank.initializeMint_eq_ok.mp ran
  refine ⟨fun found => ⟨_, found, rfl, rfl⟩, fun {k m} found => ?_⟩
  have different : k ≠ mint := by
    rintro rfl
    cases fresh.symm.trans found
  exact ⟨m, (Finmap.lookup_insert_of_ne _ different).trans found, .refl m, rfl⟩

end Creation

section Mints
variable {b b' : Bank} {mint k : Pubkey}

theorem Bank.mintTo_mints {account authority : Pubkey} {amount : Nat}
    (ran : b.mintToChecked mint account authority amount = .ok b') (different : k ≠ mint) :
    b'.mints.lookup k = b.mints.lookup k := by
  obtain ⟨_, _, _, _, _, _, _, _, rfl⟩ := Bank.mintToChecked_eq_ok.mp ran
  exact Finmap.lookup_insert_of_ne _ different

theorem Bank.burn_mints {account authority : Pubkey} {amount : Nat}
    (ran : b.burnChecked account mint authority amount = .ok b') (different : k ≠ mint) :
    b'.mints.lookup k = b.mints.lookup k := by
  obtain ⟨_, _, _, _, _, _, _, _, _, rfl⟩ := Bank.burnChecked_eq_ok.mp ran
  exact Finmap.lookup_insert_of_ne _ different

theorem Bank.setMintAuthority_mints {authority : Pubkey} {newAuthority : Option Pubkey}
    (ran : b.setMintAuthority mint authority newAuthority = .ok b') (different : k ≠ mint) :
    b'.mints.lookup k = b.mints.lookup k := by
  obtain ⟨_, _, _, rfl⟩ := Bank.setMintAuthority_eq_ok.mp ran
  exact Finmap.lookup_insert_of_ne _ different

theorem Bank.initializeMint_mints {program : TokenProgram} {authority freezeAuthority : Option Pubkey}
    {decimals : Nat} {extensions : List ExtensionType}
    (ran : b.initializeMint mint program authority decimals freezeAuthority extensions = .ok b')
    (different : k ≠ mint) : b'.mints.lookup k = b.mints.lookup k := by
  obtain ⟨_, rfl⟩ := Bank.initializeMint_eq_ok.mp ran
  exact Finmap.lookup_insert_of_ne _ different

theorem Bank.closeAccount_mints {account authority : Pubkey} (ran : b.closeAccount account authority = .ok b') :
    b'.mints = b.mints := by
  obtain ⟨_, _, _, _, rfl⟩ := Bank.closeAccount_eq_ok.mp ran
  rfl

theorem Bank.initializeAccount_mints {account owner : Pubkey}
    (ran : b.initializeAccount account mint owner = .ok b') : b'.mints = b.mints := by
  obtain ⟨_, _, rfl⟩ := Bank.initializeAccount_eq_ok.mp ran
  rfl

end Mints

end Upshift
