import Upshift.Token.Effects

namespace Upshift
open Guard KeyedStore

/-- The same owner and mint, and the same delegation. -/
def TokenAccount.SameGrant (t t' : TokenAccount) : Prop :=
  t'.mint = t.mint ∧ t'.owner = t.owner ∧ t'.delegate = t.delegate ∧ t'.delegatedAmount = t.delegatedAmount

/-- A delegation of an account to `k`, or none. -/
def TokenAccount.GrantedTo (t : TokenAccount) (k : Pubkey) : Prop := t.delegate = some k ∨ t.delegate = none

theorem TokenAccount.SameGrant.refl (t : TokenAccount) : t.SameGrant t := ⟨rfl, rfl, rfl, rfl⟩

theorem TokenAccount.SameGrant.trans {t t' t'' : TokenAccount} (first : t.SameGrant t') (second : t'.SameGrant t'') :
    t.SameGrant t'' := by
  obtain ⟨mint, owner, delegate, amount⟩ := first
  obtain ⟨mint', owner', delegate', amount'⟩ := second
  exact ⟨mint'.trans mint, owner'.trans owner, delegate'.trans delegate, amount'.trans amount⟩

theorem TokenAccount.SameGrant.grantedTo {t t' : TokenAccount} {k : Pubkey} (same : t.SameGrant t')
    (granted : t.GrantedTo k) : t'.GrantedTo k := by
  rw [TokenAccount.GrantedTo, same.2.2.1]
  exact granted

/-- What `k` was granted on an account is left as it was. -/
def Bank.Spares (account k : Pubkey) (b b' : Bank) : Prop :=
  ∀ t, b.accounts.lookup account = some t → t.GrantedTo k →
    ∃ t', b'.accounts.lookup account = some t' ∧ t.SameGrant t'

section Spares
variable {account k : Pubkey} {b b' b'' : Bank}

theorem Bank.Spares.refl (b : Bank) : b.Spares account k b := fun t found _ => ⟨t, found, .refl t⟩

theorem Bank.Spares.trans (first : b.Spares account k b') (second : b'.Spares account k b'') :
    b.Spares account k b'' := by
  intro t found granted
  obtain ⟨t', found', same⟩ := first t found granted
  obtain ⟨t'', found'', same'⟩ := second t' found' (same.grantedTo granted)
  exact ⟨t'', found'', same.trans same'⟩

/-- An account rewritten within its grant, or another account rewritten. -/
theorem Bank.Spares.insert {accounts : Store Pubkey TokenAccount} {mints mints' : Store Pubkey Mint} {k₀ : Pubkey}
    {t₀ t₀' : TokenAccount} (found₀ : accounts.lookup k₀ = some t₀)
    (same : k₀ = account → t₀.GrantedTo k → t₀.SameGrant t₀') :
    Bank.Spares account k ⟨mints, accounts⟩ ⟨mints', accounts.insert k₀ t₀'⟩ := by
  intro t found granted
  by_cases here : account = k₀
  · subst here
    cases Option.some.inj (found₀.symm.trans found)
    exact ⟨t₀', Finmap.lookup_insert _, same rfl granted⟩
  · exact ⟨t, (Finmap.lookup_insert_of_ne _ here).trans found, .refl t⟩

/-- A debit by anybody but `k` leaves the delegation to `k` as it was. -/
theorem TokenAccount.spend_spares {t spent : TokenAccount} {authority : Pubkey} {amount : Nat}
    (debit : t.spend authority amount = .ok spent) (other : authority ≠ k) (granted : t.GrantedTo k) : spent = t := by
  have apart : t.delegate ≠ some authority := by
    intro acts
    rcases granted with delegate | none
    · exact other (Option.some.inj (delegate.symm.trans acts)).symm
    · cases none.symm.trans acts
  rw [TokenAccount.spend, if_neg apart] at debit
  simp only [bind_eq_ok, require_eq_ok, pure_eq_ok, exists_const] at debit
  exact debit.2.symm

theorem Bank.transfer_spares {source mint destination authority : Pubkey} {amount : Nat}
    (ran : b.transferChecked source mint destination authority amount = .ok b')
    (apart : source ≠ account ∨ authority ≠ k) : b.Spares account k b' := by
  obtain ⟨src, dst, _, spent, atSource, atDestination, _, _, _, _, debit, outcome⟩ :=
    Bank.transferChecked_eq_ok.mp ran
  rcases outcome with ⟨_, rfl⟩ | ⟨different, _, rfl⟩
  · exact .refl b'
  · have first : b.Spares account k ⟨b.mints, b.accounts.insert source { spent with amount := src.amount - amount }⟩ := by
      refine .insert atSource fun here granted => ?_
      rcases apart with elsewhere | other
      · exact absurd here elsewhere
      · rw [TokenAccount.spend_spares debit other granted]
        exact ⟨rfl, rfl, rfl, rfl⟩
    refine first.trans (.insert ((Finmap.lookup_insert_of_ne _ (Ne.symm different)).trans atDestination) fun _ _ => ?_)
    exact ⟨rfl, rfl, rfl, rfl⟩

theorem Bank.burn_spares {source mint authority : Pubkey} {amount : Nat}
    (ran : b.burnChecked source mint authority amount = .ok b') (apart : source ≠ account ∨ authority ≠ k) :
    b.Spares account k b' := by
  obtain ⟨src, m, spent, atSource, _, _, _, debit, _, rfl⟩ := Bank.burnChecked_eq_ok.mp ran
  refine .insert atSource fun here granted => ?_
  rcases TokenAccount.spendToBurn_eq_ok debit with ⟨_, rfl⟩ | debit
  · exact ⟨rfl, rfl, rfl, rfl⟩
  · rcases apart with elsewhere | other
    · exact absurd here elsewhere
    · rw [TokenAccount.spend_spares debit other granted]
      exact ⟨rfl, rfl, rfl, rfl⟩

theorem Bank.mintTo_spares {mint destination authority : Pubkey} {amount : Nat}
    (ran : b.mintToChecked mint destination authority amount = .ok b') : b.Spares account k b' := by
  obtain ⟨m, dst, _, atDestination, _, _, _, _, rfl⟩ := Bank.mintToChecked_eq_ok.mp ran
  exact .insert atDestination fun _ _ => ⟨rfl, rfl, rfl, rfl⟩

theorem Bank.initializeAccount_spares {fresh mint owner : Pubkey}
    (ran : b.initializeAccount fresh mint owner = .ok b') : b.Spares account k b' := by
  obtain ⟨_, ⟨_, vacant⟩, rfl⟩ := Bank.initializeAccount_eq_ok.mp ran
  intro t found _
  have different : account ≠ fresh := by
    rintro rfl
    cases vacant.symm.trans found
  exact ⟨t, (Finmap.lookup_insert_of_ne _ different).trans found, .refl t⟩

theorem Bank.Spares.of_accounts (accounts : b'.accounts = b.accounts) : b.Spares account k b' :=
  fun t found _ => ⟨t, accounts ▸ found, .refl t⟩

theorem Bank.closeAccount_spares {closed authority : Pubkey} (ran : b.closeAccount closed authority = .ok b')
    (other : closed ≠ account) : b.Spares account k b' := by
  obtain ⟨_, _, _, _, rfl⟩ := Bank.closeAccount_eq_ok.mp ran
  exact fun t found _ => ⟨t, (Finmap.lookup_erase_ne other.symm).trans found, .refl t⟩

theorem Bank.initializeMint_spares {mint : Pubkey} {program : TokenProgram} {authority : Option Pubkey}
    {decimals : Nat} {freezeAuthority : Option Pubkey} {extensions : List ExtensionType}
    (ran : b.initializeMint mint program authority decimals freezeAuthority extensions = .ok b') :
    b.Spares account k b' := by
  obtain ⟨_, rfl⟩ := Bank.initializeMint_eq_ok.mp ran
  exact .of_accounts rfl

theorem Bank.setMintAuthority_spares {mint authority : Pubkey} {newAuthority : Option Pubkey}
    (ran : b.setMintAuthority mint authority newAuthority = .ok b') : b.Spares account k b' := by
  obtain ⟨_, _, _, rfl⟩ := Bank.setMintAuthority_eq_ok.mp ran
  exact .of_accounts rfl

/-- The instructions that change or drop the delegation of an account, whoever signs them. -/
def TokenInstruction.redelegates (account : Pubkey) : TokenInstruction → Bool
  | .approve source _ _ _ | .revoke source _ => source = account
  | .setAccountOwner changed _ _ | .closeAccount changed _ => changed = account
  | _ => false

theorem Bank.execute_spares {i : TokenInstruction} (ran : b.execute i = .ok b') (acts : ∀ a ∈ i.signers, a ≠ k)
    (kept : i.redelegates account = false) : b.Spares account k b' := by
  cases i with
  | transfer => exact Bank.transfer_spares ran (Or.inr (acts _ List.mem_cons_self))
  | mintTo => exact Bank.mintTo_spares ran
  | burn => exact Bank.burn_spares ran (Or.inr (acts _ List.mem_cons_self))
  | approve =>
    obtain ⟨t, found, _, rfl⟩ := Bank.approve_eq_ok.mp ran
    exact .insert found fun here _ => absurd here (of_decide_eq_false kept)
  | revoke =>
    obtain ⟨t, found, _, rfl⟩ := Bank.revoke_eq_ok.mp ran
    exact .insert found fun here _ => absurd here (of_decide_eq_false kept)
  | setAccountOwner =>
    obtain ⟨t, found, _, rfl⟩ := Bank.setAccountOwner_eq_ok.mp ran
    exact .insert found fun here _ => absurd here (of_decide_eq_false kept)
  | setCloseAuthority =>
    obtain ⟨t, found, _, rfl⟩ := Bank.setCloseAuthority_eq_ok.mp ran
    exact .insert found fun _ _ => ⟨rfl, rfl, rfl, rfl⟩
  | setMintAuthority => exact Bank.setMintAuthority_spares ran
  | closeAccount => exact Bank.closeAccount_spares ran (of_decide_eq_false kept)
  | createAssociatedAccount => exact Bank.initializeAccount_spares ran
  | initializeAccount => exact Bank.initializeAccount_spares ran
  | initializeMint => exact Bank.initializeMint_spares ran

end Spares

end Upshift
