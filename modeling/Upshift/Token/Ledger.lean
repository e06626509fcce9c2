import Upshift.Token.Effects

namespace Upshift
open Guard KeyedStore

/-- An account at an associated address belongs to the authority the address names, unless that
authority can sign it away. -/
def Associated (accounts : Store Pubkey TokenAccount) : Prop :=
  ∀ a m t, accounts.lookup (.associatedToken a m) = some t → a.canSign = false → t.owner = a

theorem Associated.insert {accounts : Store Pubkey TokenAccount} (associated : Associated accounts) {k : Pubkey}
    {t : TokenAccount} (placed : ∀ a m, k = .associatedToken a m → a.canSign = false → t.owner = a) :
    Associated (accounts.insert k t) := by
  intro a m s found derived
  rcases lookup_insert_cases found with ⟨here, rfl⟩ | ⟨_, before⟩
  · exact placed a m here.symm derived
  · exact associated a m s before derived

theorem Associated.rewrite {accounts : Store Pubkey TokenAccount} (associated : Associated accounts) {k : Pubkey}
    {t t' : TokenAccount} (found : accounts.lookup k = some t) (owner : t'.owner = t.owner) :
    Associated (accounts.insert k t') := by
  refine associated.insert fun a m here derived => ?_
  subst here
  exact owner.trans (associated a m t found derived)

/-- Addresses at which an account keeps the derived owner it was opened for. -/
def Pubkey.custodial : Pubkey → Bool
  | .vaultToken _ _ => true
  | .associatedToken a _ => !a.canSign && !a.ownerless
  | _ => false

theorem Pubkey.not_custodial_of_canSign {a : Pubkey} (signs : a.canSign = true) : a.custodial = false := by
  cases a with
  | key => rfl
  | _ => cases signs

/-- An account at such an address is owned by a derived address and can be closed by nobody else. -/
def Custody (accounts : Store Pubkey TokenAccount) : Prop :=
  ∀ k t, accounts.lookup k = some t → k.custodial = true →
    t.owner.canSign = false ∧ t.owner.ownerless = false ∧ t.closeAuthority = none

theorem Custody.insert {accounts : Store Pubkey TokenAccount} (custody : Custody accounts) {k : Pubkey}
    {t : TokenAccount} (placed : k.custodial = true →
      t.owner.canSign = false ∧ t.owner.ownerless = false ∧ t.closeAuthority = none) : Custody (accounts.insert k t) := by
  intro x s found held
  rcases lookup_insert_cases found with ⟨rfl, rfl⟩ | ⟨_, before⟩
  · exact placed held
  · exact custody x s before held

theorem Custody.rewrite {accounts : Store Pubkey TokenAccount} (custody : Custody accounts) {k : Pubkey}
    {t t' : TokenAccount} (found : accounts.lookup k = some t) (owner : t'.owner = t.owner)
    (closer : t'.closeAuthority = t.closeAuthority) : Custody (accounts.insert k t') := by
  refine custody.insert fun held => ?_
  rw [owner, closer]
  exact custody k t found held

/-- Only its owner has power over the account. -/
structure TokenAccount.Sole (t : TokenAccount) : Prop where
  undelegated : t.delegate = none
  unclosable : t.closeAuthority = none
  owned : t.owner.ownerless = false

theorem TokenAccount.Sole.credited {t : TokenAccount} (sole : t.Sole) (amount : Nat) :
    TokenAccount.Sole { t with amount := amount } := ⟨sole.undelegated, sole.unclosable, sole.owned⟩

/-- Every account's mint exists, the accounts of a mint hold its supply, which fits in a `u64`,
and an account whose owner cannot sign never has a delegate. -/
structure Bank.Sound (b : Bank) : Prop where
  minted : ∀ {k t}, b.accounts.lookup k = some t → ∃ m, b.mints.lookup t.mint = some m
  conserved : ∀ mint, b.held mint = b.supply mint
  bounded : ∀ mint, b.supply mint ≤ u64Max
  undelegated : ∀ {k t}, b.accounts.lookup k = some t → t.owner.canSign = false → t.delegate = none
  associated : Associated b.accounts
  custody : Custody b.accounts

/-- What the token program guarantees to everybody else when only authorities in `A` have signed:
the accounts that are theirs alone lose nothing, and their mints issue nothing. -/
structure Bank.Respects (A : Pubkey → Prop) (b b' : Bank) : Prop where
  account : ∀ {k t}, b.accounts.lookup k = some t → t.Sole → ¬A t.owner →
    ∃ t', b'.accounts.lookup k = some t' ∧ t'.mint = t.mint ∧ t'.owner = t.owner ∧ t'.Sole ∧
      t.amount ≤ t'.amount
  mint : ∀ {k m}, b.mints.lookup k = some m → ∃ m', b'.mints.lookup k = some m' ∧ m.SameKind m' ∧
    ((∀ a, m.mintAuthority = some a → ¬A a) → m'.mintAuthority = m.mintAuthority ∧ m'.supply ≤ m.supply)

section Respects
variable {A B : Pubkey → Prop} {b b' b'' : Bank}

theorem Bank.Respects.refl : b.Respects A b :=
  ⟨fun found sole _ => ⟨_, found, rfl, rfl, sole, le_rfl⟩,
    fun found => ⟨_, found, .refl _, fun _ => ⟨rfl, le_rfl⟩⟩⟩

theorem Bank.Respects.trans (first : b.Respects A b') (second : b'.Respects A b'') : b.Respects A b'' := by
  constructor
  · intro k t found sole other
    obtain ⟨t', found', mint', owner', sole', amount'⟩ := first.account found sole other
    obtain ⟨t'', found'', mint'', owner'', sole'', amount''⟩ :=
      second.account found' sole' (owner' ▸ other)
    exact ⟨t'', found'', mint''.trans mint', owner''.trans owner', sole'', amount'.trans amount''⟩
  · intro k m found
    obtain ⟨m', found', kind', kept'⟩ := first.mint found
    obtain ⟨m'', found'', kind'', kept''⟩ := second.mint found'
    refine ⟨m'', found'', kind'.trans kind'', fun other => ?_⟩
    obtain ⟨authority', supply'⟩ := kept' other
    obtain ⟨authority'', supply''⟩ := kept'' (authority' ▸ other)
    exact ⟨authority''.trans authority', supply''.trans supply'⟩

theorem Bank.Respects.weaken (run : b.Respects A b') (wider : ∀ a, A a → B a) : b.Respects B b' :=
  ⟨fun found sole other => run.account found sole fun inside => other (wider _ inside),
    fun found => by
      obtain ⟨m', found', kind, kept⟩ := run.mint found
      exact ⟨m', found', kind, fun other => kept fun a authority inside => other a authority (wider _ inside)⟩⟩

/-- A change of the accounts alone respects everybody whose accounts it leaves as they were. -/
theorem Bank.Respects.of_accounts (mints : b'.mints = b.mints)
    (others : ∀ k t, b.accounts.lookup k = some t → t.Sole → ¬A t.owner →
      ∃ t', b'.accounts.lookup k = some t' ∧ t'.mint = t.mint ∧ t'.owner = t.owner ∧ t'.Sole ∧
        t.amount ≤ t'.amount) : b.Respects A b' :=
  ⟨fun {k t} found sole other => others k t found sole other,
    fun {_ m} found => ⟨m, mints ▸ found, .refl m, fun _ => ⟨rfl, le_rfl⟩⟩⟩

/-- An authority that passed `spend` owned the account or was its delegate. -/
theorem TokenAccount.spend_inside {t spent : TokenAccount} {authority : Pubkey} {amount : Nat}
    (debit : t.spend authority amount = .ok spent) (acts : A authority) (undelegated : t.delegate = none) :
    A t.owner := by
  obtain ⟨_, _, _, _, delegated | owner⟩ := TokenAccount.spend_eq_ok debit
  · simp only [undelegated, reduceCtorEq] at delegated
  · exact owner ▸ acts

theorem TokenAccount.burn_inside {t spent : TokenAccount} {authority : Pubkey} {amount : Nat}
    (debit : t.spendToBurn authority amount = .ok spent) (acts : A authority) (sole : t.Sole) : A t.owner := by
  rcases TokenAccount.spendToBurn_eq_ok debit with ⟨free, _⟩ | debit
  · cases free.symm.trans sole.owned
  · exact TokenAccount.spend_inside debit acts sole.undelegated

theorem Bank.transfer_respects {source mint destination authority : Pubkey} {amount : Nat}
    (ran : b.transferChecked source mint destination authority amount = .ok b') (acts : A authority) :
    b.Respects A b' := by
  refine .of_accounts (Bank.transfer_mints ran) fun k t found sole other => ?_
  obtain ⟨src, dst, _, spent, atSource, atDestination, _, _, _, _, debit, outcome⟩ :=
    Bank.transferChecked_eq_ok.mp ran
  rcases outcome with ⟨_, rfl⟩ | ⟨_, _, rfl⟩
  · exact ⟨t, found, rfl, rfl, sole, le_rfl⟩
  · simp only [lookup_insert_ite]
    split
    · rename_i here
      subst here
      cases Option.some.inj (atDestination.symm.trans found)
      exact ⟨_, rfl, rfl, rfl, sole.credited _, Nat.le_add_right _ _⟩
    · split
      · rename_i here
        subst here
        cases Option.some.inj (atSource.symm.trans found)
        exact absurd (TokenAccount.spend_inside debit acts sole.undelegated) other
      · exact ⟨t, found, rfl, rfl, sole, le_rfl⟩

theorem Bank.mintTo_respects {mint account authority : Pubkey} {amount : Nat}
    (ran : b.mintToChecked mint account authority amount = .ok b') (acts : A authority) : b.Respects A b' := by
  obtain ⟨m, dst, atMint, atAccount, _, authorized, _, _, rfl⟩ := Bank.mintToChecked_eq_ok.mp ran
  constructor
  · intro k t found sole _
    simp only [lookup_insert_ite]
    split
    · rename_i here
      subst here
      cases Option.some.inj (atAccount.symm.trans found)
      exact ⟨_, rfl, rfl, rfl, sole.credited _, Nat.le_add_right _ _⟩
    · exact ⟨t, found, rfl, rfl, sole, le_rfl⟩
  · intro k m' found
    simp only [lookup_insert_ite]
    split
    · rename_i here
      subst here
      cases Option.some.inj (atMint.symm.trans found)
      exact ⟨_, rfl, ⟨rfl, rfl, rfl, rfl⟩, fun other => absurd acts (other authority authorized)⟩
    · exact ⟨m', found, .refl m', fun _ => ⟨rfl, le_rfl⟩⟩

theorem Bank.burn_respects {mint account authority : Pubkey} {amount : Nat}
    (ran : b.burnChecked account mint authority amount = .ok b') (acts : A authority) : b.Respects A b' := by
  obtain ⟨src, m, spent, atAccount, atMint, _, _, debit, _, rfl⟩ := Bank.burnChecked_eq_ok.mp ran
  constructor
  · intro k t found sole other
    simp only [lookup_insert_ite]
    split
    · rename_i here
      subst here
      cases Option.some.inj (atAccount.symm.trans found)
      exact absurd (TokenAccount.burn_inside debit acts sole) other
    · exact ⟨t, found, rfl, rfl, sole, le_rfl⟩
  · intro k m' found
    simp only [lookup_insert_ite]
    split
    · rename_i here
      subst here
      cases Option.some.inj (atMint.symm.trans found)
      exact ⟨_, rfl, ⟨rfl, rfl, rfl, rfl⟩, fun _ => ⟨rfl, Nat.sub_le _ _⟩⟩
    · exact ⟨m', found, .refl m', fun _ => ⟨rfl, le_rfl⟩⟩

/-- Rewriting or dropping one account respects everybody but its owner. -/
theorem Bank.Respects.of_owner {account : Pubkey} {t : TokenAccount} {accounts : Store Pubkey TokenAccount}
    (found : b.accounts.lookup account = some t) (acts : t.Sole → A t.owner)
    (rest : ∀ k, k ≠ account → accounts.lookup k = b.accounts.lookup k) : b.Respects A ⟨b.mints, accounts⟩ := by
  refine .of_accounts rfl fun k t' found' sole other => ?_
  by_cases here : k = account
  · subst here
    cases Option.some.inj (found.symm.trans found')
    exact absurd (acts sole) other
  · exact ⟨t', (rest k here).trans found', rfl, rfl, sole, le_rfl⟩

theorem Bank.initializeAccount_respects {account mint owner : Pubkey}
    (ran : b.initializeAccount account mint owner = .ok b') : b.Respects A b' := by
  obtain ⟨_, ⟨_, fresh⟩, rfl⟩ := Bank.initializeAccount_eq_ok.mp ran
  refine .of_accounts rfl fun k t found sole _ => ?_
  have different : k ≠ account := by
    rintro rfl
    cases fresh.symm.trans found
  exact ⟨t, (Finmap.lookup_insert_of_ne _ different).trans found, rfl, rfl, sole, le_rfl⟩

theorem Bank.initializeMint_respects {mint : Pubkey} {program : TokenProgram} {authority : Option Pubkey}
    {decimals : Nat} {freezeAuthority : Option Pubkey} {extensions : List ExtensionType}
    (ran : b.initializeMint mint program authority decimals freezeAuthority extensions = .ok b') :
    b.Respects A b' := by
  obtain ⟨⟨fresh, _⟩, rfl⟩ := Bank.initializeMint_eq_ok.mp ran
  refine ⟨fun found sole _ => ⟨_, found, rfl, rfl, sole, le_rfl⟩, fun {k m} found => ?_⟩
  have different : k ≠ mint := by
    rintro rfl
    cases fresh.symm.trans found
  exact ⟨m, (Finmap.lookup_insert_of_ne _ different).trans found, .refl m, fun _ => ⟨rfl, le_rfl⟩⟩

theorem Bank.setMintAuthority_respects {mint authority : Pubkey} {newAuthority : Option Pubkey}
    (ran : b.setMintAuthority mint authority newAuthority = .ok b') (acts : A authority) : b.Respects A b' := by
  obtain ⟨m, atMint, authorized, rfl⟩ := Bank.setMintAuthority_eq_ok.mp ran
  refine ⟨fun found sole _ => ⟨_, found, rfl, rfl, sole, le_rfl⟩, fun {k m'} found => ?_⟩
  simp only [lookup_insert_ite]
  split
  · rename_i here
    subst here
    cases Option.some.inj (atMint.symm.trans found)
    exact ⟨_, rfl, ⟨rfl, rfl, rfl, rfl⟩, fun other => absurd acts (other authority authorized)⟩
  · exact ⟨m', found, .refl m', fun _ => ⟨rfl, le_rfl⟩⟩

/-- The key that may close an account that is its owner's alone is the owner. -/
theorem TokenAccount.Sole.closer {t : TokenAccount} (sole : t.Sole) : t.closer = t.owner := by
  rw [TokenAccount.closer, sole.unclosable, Option.getD_none]

theorem Bank.closeAccount_respects {account authority : Pubkey}
    (ran : b.closeAccount account authority = .ok b') (acts : A authority) : b.Respects A b' := by
  obtain ⟨t, found, _, closes, rfl⟩ := Bank.closeAccount_eq_ok.mp ran
  refine .of_owner found (fun sole => ?_) fun k other => Finmap.lookup_erase_ne other
  rcases closes with free | rfl
  · cases free.symm.trans sole.owned
  · exact sole.closer ▸ acts

theorem Bank.execute_respects {i : TokenInstruction} (ran : b.execute i = .ok b')
    (acts : ∀ a ∈ i.signers, A a) : b.Respects A b' := by
  cases i with
  | transfer => exact Bank.transfer_respects ran (acts _ List.mem_cons_self)
  | mintTo => exact Bank.mintTo_respects ran (acts _ List.mem_cons_self)
  | burn => exact Bank.burn_respects ran (acts _ List.mem_cons_self)
  | approve =>
    obtain ⟨t, found, rfl, rfl⟩ := Bank.approve_eq_ok.mp ran
    exact .of_owner found (fun _ => acts _ List.mem_cons_self) fun k other => Finmap.lookup_insert_of_ne _ other
  | revoke =>
    obtain ⟨t, found, rfl, rfl⟩ := Bank.revoke_eq_ok.mp ran
    exact .of_owner found (fun _ => acts _ List.mem_cons_self) fun k other => Finmap.lookup_insert_of_ne _ other
  | setAccountOwner =>
    obtain ⟨t, found, rfl, rfl⟩ := Bank.setAccountOwner_eq_ok.mp ran
    exact .of_owner found (fun _ => acts _ List.mem_cons_self) fun k other => Finmap.lookup_insert_of_ne _ other
  | setCloseAuthority =>
    obtain ⟨t, found, rfl, rfl⟩ := Bank.setCloseAuthority_eq_ok.mp ran
    refine .of_owner found (fun sole => ?_) fun k other => Finmap.lookup_insert_of_ne _ other
    exact sole.closer ▸ acts _ List.mem_cons_self
  | setMintAuthority => exact Bank.setMintAuthority_respects ran (acts _ List.mem_cons_self)
  | closeAccount => exact Bank.closeAccount_respects ran (acts _ List.mem_cons_self)
  | createAssociatedAccount => exact Bank.initializeAccount_respects ran
  | initializeAccount => exact Bank.initializeAccount_respects ran
  | initializeMint => exact Bank.initializeMint_respects ran

end Respects

section Sound
variable {b b' : Bank}

theorem Bank.transfer_held {source mint destination authority : Pubkey} {amount : Nat}
    (ran : b.transferChecked source mint destination authority amount = .ok b') (k : Pubkey) :
    b'.held k = b.held k := by
  obtain ⟨src, dst, m, spent, atSource, atDestination, _, covered, sourceMint, destinationMint, debit,
    outcome⟩ := Bank.transferChecked_eq_ok.mp ran
  rcases outcome with ⟨_, rfl⟩ | ⟨different, _, rfl⟩
  · rfl
  obtain ⟨spentMint, _⟩ := TokenAccount.spend_eq_ok debit
  have moved := total_insert_insert (TokenAccount.holding k) { spent with amount := src.amount - amount }
    { dst with amount := dst.amount + amount } atSource atDestination different
  have exchanged : TokenAccount.holding k { spent with amount := src.amount - amount } +
      TokenAccount.holding k { dst with amount := dst.amount + amount } = src.holding k + dst.holding k := by
    simp only [TokenAccount.holding, spentMint, sourceMint, destinationMint]
    split <;> omega
  rw [exchanged] at moved
  exact Nat.add_right_cancel moved

theorem Bank.mintTo_held {mint account authority : Pubkey} {amount : Nat}
    (ran : b.mintToChecked mint account authority amount = .ok b') (k : Pubkey) :
    b'.held k = if k = mint then b.held k + amount else b.held k := by
  obtain ⟨m, dst, _, atAccount, rfl, _, _, _, rfl⟩ := Bank.mintToChecked_eq_ok.mp ran
  have credited := total_insert (TokenAccount.holding k) { dst with amount := dst.amount + amount } atAccount
  simp only [TokenAccount.holding, @eq_comm _ _ k] at credited
  simp only [Bank.held]
  split at credited
  · rename_i here
    rw [if_pos here]
    omega
  · rename_i other
    rw [if_neg other]
    omega

theorem Bank.burn_held {mint account authority : Pubkey} {amount : Nat}
    (ran : b.burnChecked account mint authority amount = .ok b') (k : Pubkey) :
    b'.held k = if k = mint then b.held k - amount else b.held k := by
  obtain ⟨src, m, spent, atAccount, _, covered, rfl, debit, _, rfl⟩ := Bank.burnChecked_eq_ok.mp ran
  obtain ⟨spentMint, _⟩ := TokenAccount.spendToBurn_keeps debit
  have debited := total_insert (TokenAccount.holding k) { spent with amount := src.amount - amount } atAccount
  have before : src.holding k = if k = src.mint then src.amount else 0 := by
    simp only [TokenAccount.holding, @eq_comm _ _ k]
  have after : TokenAccount.holding k { spent with amount := src.amount - amount } =
      if k = src.mint then src.amount - amount else 0 := by
    simp only [TokenAccount.holding, spentMint, @eq_comm _ _ k]
  simp only [Bank.held]
  by_cases here : k = src.mint
  · rw [if_pos here] at before after ⊢
    omega
  · rw [if_neg here] at before after ⊢
    omega

theorem Bank.balance_le_held {account : Pubkey} {t : TokenAccount}
    (found : b.accounts.lookup account = some t) : t.amount ≤ b.held t.mint := by
  have bound := le_total (TokenAccount.holding t.mint) found
  rwa [TokenAccount.holding, if_pos rfl] at bound

theorem Bank.Sound.amount_le (sound : b.Sound) {account : Pubkey} {t : TokenAccount}
    (found : b.accounts.lookup account = some t) : t.amount ≤ b.supply t.mint :=
  (Bank.balance_le_held found).trans (sound.conserved t.mint).le

/-- No account holds more than its mint has issued, which is in range. -/
theorem Bank.Sound.balance_le (sound : b.Sound) (account : Pubkey) : b.balance account ≤ u64Max := by
  cases found : b.accounts.lookup account with
  | none =>
    rw [Bank.balance, found]
    exact Nat.zero_le _
  | some t =>
    rw [Bank.balance_of_lookup found]
    exact (sound.amount_le found).trans (sound.bounded t.mint)

/-- Moving tokens between two accounts of a mint never overflows the receiving one. -/
theorem Bank.Sound.fits (sound : b.Sound) {source destination : Pubkey} {src dst : TokenAccount}
    (atSource : b.accounts.lookup source = some src) (atDestination : b.accounts.lookup destination = some dst)
    (same : src.mint = dst.mint) (different : source ≠ destination) :
    dst.amount + src.amount ≤ u64Max := by
  have both := add_le_total (TokenAccount.holding dst.mint) atDestination atSource different.symm
  rw [TokenAccount.holding, TokenAccount.holding, if_pos rfl, if_pos same] at both
  exact both.trans ((sound.conserved dst.mint).le.trans (sound.bounded dst.mint))

/-- A derived owner can move any part of what one of its accounts holds. -/
theorem Bank.Sound.pays (sound : b.Sound) {source destination mint authority : Pubkey} {amount : Nat}
    (atSource : ∃ t, b.accounts.lookup source = some t ∧ t.owner = authority ∧ t.mint = mint)
    (atDestination : ∃ t, b.accounts.lookup destination = some t ∧ t.mint = mint)
    (derived : authority.canSign = false) (covered : amount ≤ b.balance source) :
    ∃ b', b.transferChecked source mint destination authority amount = .ok b' := by
  obtain ⟨src, atSource, owner, sourceMint⟩ := atSource
  obtain ⟨dst, atDestination, destinationMint⟩ := atDestination
  obtain ⟨m, atMint⟩ := sound.minted atSource
  rw [Bank.balance_of_lookup atSource] at covered
  refine Bank.transfer_succeeds atSource atDestination (sourceMint ▸ atMint) sourceMint destinationMint owner
    (sound.undelegated atSource (owner ▸ derived)) covered fun different => ?_
  have room := sound.fits atSource atDestination (sourceMint.trans destinationMint.symm) different
  omega

theorem Bank.empty_sound : Bank.empty.Sound :=
  ⟨fun found => by simp only [Bank.empty, Finmap.lookup_empty, reduceCtorEq] at found, fun _ => rfl,
    fun _ => Nat.zero_le _, fun found => by simp only [Bank.empty, Finmap.lookup_empty, reduceCtorEq] at found,
    fun _ _ _ found => by simp only [Bank.empty, Finmap.lookup_empty, reduceCtorEq] at found,
    fun _ _ found => by simp only [Bank.empty, Finmap.lookup_empty, reduceCtorEq] at found⟩

/-- Nobody but its owner has power over an account at such an address. -/
theorem Bank.Sound.sole (sound : b.Sound) {k : Pubkey} {t : TokenAccount} (found : b.accounts.lookup k = some t)
    (held : k.custodial = true) : t.Sole := by
  obtain ⟨derived, owned, unclosable⟩ := sound.custody k t found held
  exact ⟨sound.undelegated found derived, unclosable, owned⟩

/-- What is done in other names takes nothing out of an associated account of a derived address. -/
theorem Bank.Sound.associated_kept (sound : b.Sound) {A : Pubkey → Prop} (run : b.Respects A b') {a m : Pubkey}
    (held : Pubkey.custodial (.associatedToken a m) = true) (outside : ¬A a) :
    b.balance (.associatedToken a m) ≤ b'.balance (.associatedToken a m) := by
  cases found : b.accounts.lookup (.associatedToken a m) with
  | none =>
    rw [Bank.balance, found, Option.elim_none]
    exact Nat.zero_le _
  | some t =>
    have derived : a.canSign = false := by
      simp only [Pubkey.custodial, Bool.and_eq_true, Bool.not_eq_true'] at held
      exact held.1
    have owner := sound.associated a m t found derived
    obtain ⟨t', found', _, _, _, amount⟩ := run.account found (sound.sole found held) (owner ▸ outside)
    rw [Bank.balance_of_lookup found, Bank.balance_of_lookup found']
    exact amount

/-- An account that a key can close by its signature is not at such an address. -/
theorem Bank.Sound.not_custodial (sound : b.Sound) {k : Pubkey} {t : TokenAccount}
    (found : b.accounts.lookup k = some t) (signs : t.owner.canSign = true ∨ t.closer.canSign = true) :
    k.custodial = false := by
  by_contra held
  have sole := sound.sole found (Bool.not_eq_false _ ▸ held)
  obtain ⟨derived, _⟩ := sound.custody k t found (Bool.not_eq_false _ ▸ held)
  rw [sole.closer, or_self, derived] at signs
  cases signs

/-- A rewritten account that keeps its mint and amount leaves the ledger sound. -/
theorem Bank.Sound.rewrite (sound : b.Sound) {account : Pubkey} {t t' : TokenAccount}
    (found : b.accounts.lookup account = some t) (mint : t'.mint = t.mint) (amount : t'.amount = t.amount)
    (safe : t'.owner.canSign = false → t'.delegate = none)
    (placed : ∀ a m, account = .associatedToken a m → a.canSign = false → t'.owner = a)
    (outside : account.custodial = false) : Bank.Sound ⟨b.mints, b.accounts.insert account t'⟩ := by
  constructor
  · intro k s atKey
    simp only [lookup_insert_ite] at atKey
    split at atKey
    · cases atKey
      exact mint ▸ sound.minted found
    · exact sound.minted atKey
  · intro k
    have moved := total_insert (TokenAccount.holding k) t' found
    rw [TokenAccount.holding, TokenAccount.holding, mint, amount] at moved
    exact (Nat.add_right_cancel moved).trans (sound.conserved k)
  · exact sound.bounded
  · intro k s atKey
    simp only [lookup_insert_ite] at atKey
    split at atKey
    · cases atKey
      exact safe
    · exact sound.undelegated atKey
  · exact sound.associated.insert placed
  · exact sound.custody.insert fun held => absurd (outside.symm.trans held) Bool.noConfusion

theorem Bank.Sound.transfer (sound : b.Sound) {source mint destination authority : Pubkey} {amount : Nat}
    (ran : b.transferChecked source mint destination authority amount = .ok b') : b'.Sound := by
  obtain ⟨src, dst, m, spent, atSource, atDestination, atMint, covered, sourceMint, destinationMint, debit,
    outcome⟩ := Bank.transferChecked_eq_ok.mp ran
  rcases outcome with ⟨_, rfl⟩ | ⟨different, _, rfl⟩
  · exact sound
  obtain ⟨spentMint, spentOwner, spentCloser, spentUndelegated, _⟩ := TokenAccount.spend_eq_ok debit
  constructor
  · intro k t found
    simp only [lookup_insert_ite] at found
    split at found
    · cases found
      exact ⟨m, destinationMint ▸ atMint⟩
    · split at found
      · cases found
        exact ⟨m, (spentMint.trans sourceMint) ▸ atMint⟩
      · exact sound.minted found
  · exact fun k => (Bank.transfer_held ran k).trans (sound.conserved k)
  · exact sound.bounded
  · intro k t found derived
    simp only [lookup_insert_ite] at found
    split at found
    · cases found
      exact @Bank.Sound.undelegated b sound destination dst atDestination derived
    · split at found
      · cases found
        exact spentUndelegated (sound.undelegated atSource (spentOwner ▸ derived))
      · exact sound.undelegated found derived
  · have debited : Associated (b.accounts.insert source { spent with amount := src.amount - amount }) :=
      sound.associated.rewrite atSource spentOwner
    refine @Associated.rewrite _ debited destination dst _ ?_ rfl
    exact (Finmap.lookup_insert_of_ne _ (Ne.symm different)).trans atDestination
  · have debited : Custody (b.accounts.insert source { spent with amount := src.amount - amount }) :=
      sound.custody.rewrite atSource spentOwner spentCloser
    refine @Custody.rewrite _ debited destination dst _ ?_ rfl rfl
    exact (Finmap.lookup_insert_of_ne _ (Ne.symm different)).trans atDestination

theorem Bank.Sound.mintTo (sound : b.Sound) {mint account authority : Pubkey} {amount : Nat}
    (ran : b.mintToChecked mint account authority amount = .ok b') : b'.Sound := by
  obtain ⟨m, dst, atMint, atAccount, sameMint, _, _, fits, rfl⟩ := Bank.mintToChecked_eq_ok.mp ran
  constructor
  · intro k t found
    simp only [lookup_insert_ite] at found ⊢
    split at found
    · cases found
      exact ⟨_, if_pos sameMint⟩
    · obtain ⟨m', atMint'⟩ := sound.minted found
      split
      · exact ⟨_, rfl⟩
      · exact ⟨m', atMint'⟩
  · intro k
    rw [Bank.mintTo_held ran k, Bank.mintTo_supply ran k, sound.conserved k]
  · intro k
    rw [Bank.mintTo_supply ran k]
    split
    · rename_i here
      rw [here, Bank.supply_of_lookup atMint]
      exact fits
    · exact sound.bounded k
  · intro k t found derived
    simp only [lookup_insert_ite] at found
    split at found
    · cases found
      exact @Bank.Sound.undelegated b sound account dst atAccount derived
    · exact sound.undelegated found derived
  · exact sound.associated.rewrite atAccount rfl
  · exact sound.custody.rewrite atAccount rfl rfl

theorem Bank.Sound.burn (sound : b.Sound) {mint account authority : Pubkey} {amount : Nat}
    (ran : b.burnChecked account mint authority amount = .ok b') : b'.Sound := by
  obtain ⟨src, m, spent, atAccount, atMint, covered, sameMint, debit, within, rfl⟩ :=
    Bank.burnChecked_eq_ok.mp ran
  obtain ⟨spentMint, spentOwner, spentCloser, spentUndelegated⟩ := TokenAccount.spendToBurn_keeps debit
  constructor
  · intro k t found
    simp only [lookup_insert_ite] at found ⊢
    split at found
    · cases found
      exact ⟨_, if_pos (spentMint.trans sameMint)⟩
    · obtain ⟨m', atMint'⟩ := sound.minted found
      split
      · exact ⟨_, rfl⟩
      · exact ⟨m', atMint'⟩
  · intro k
    rw [Bank.burn_held ran k, Bank.burn_supply ran k, sound.conserved k]
  · intro k
    have before := sound.bounded k
    rw [Bank.burn_supply ran k]
    split <;> omega
  · intro k t found derived
    simp only [lookup_insert_ite] at found
    split at found
    · cases found
      exact spentUndelegated (sound.undelegated atAccount (spentOwner ▸ derived))
    · exact sound.undelegated found derived
  · exact sound.associated.rewrite atAccount spentOwner
  · exact sound.custody.rewrite atAccount spentOwner spentCloser

theorem Bank.Sound.closeAccount (sound : b.Sound) {account authority : Pubkey}
    (ran : b.closeAccount account authority = .ok b') : b'.Sound := by
  obtain ⟨t, found, empty, _, rfl⟩ := Bank.closeAccount_eq_ok.mp ran
  have kept : ∀ {k s}, (b.accounts.erase account).lookup k = some s → b.accounts.lookup k = some s := by
    intro k s atKey
    rw [lookup_erase_ite] at atKey
    split at atKey
    · cases atKey
    · exact atKey
  constructor
  · exact fun atKey => sound.minted (kept atKey)
  · intro k
    have dropped := total_erase (TokenAccount.holding k) found
    rw [TokenAccount.holding, empty, ite_self] at dropped
    exact dropped.trans (sound.conserved k)
  · exact sound.bounded
  · exact fun atKey => sound.undelegated (kept atKey)
  · exact fun a m t atKey => sound.associated a m t (kept atKey)
  · exact fun k t atKey => sound.custody k t (kept atKey)

theorem Bank.Sound.initializeAccount (sound : b.Sound) {account mint owner : Pubkey}
    (ran : b.initializeAccount account mint owner = .ok b')
    (placed : ∀ a m, account = .associatedToken a m → a.canSign = false → owner = a)
    (held : account.custodial = true → owner.canSign = false ∧ owner.ownerless = false) : b'.Sound := by
  obtain ⟨⟨m, atMint⟩, ⟨_, fresh⟩, rfl⟩ := Bank.initializeAccount_eq_ok.mp ran
  constructor
  · intro k t found
    simp only [lookup_insert_ite] at found
    split at found
    · cases found
      exact ⟨m, atMint⟩
    · exact sound.minted found
  · intro k
    have added := total_insert_fresh (TokenAccount.holding k) ⟨mint, owner, 0, none, 0, none⟩ fresh
    rw [TokenAccount.holding, ite_self, Nat.zero_add] at added
    exact added.trans (sound.conserved k)
  · exact sound.bounded
  · intro k t found derived
    simp only [lookup_insert_ite] at found
    split at found
    · cases found
      rfl
    · exact sound.undelegated found derived
  · exact sound.associated.insert placed
  · refine sound.custody.insert fun here => ?_
    obtain ⟨derived, owned⟩ := held here
    exact ⟨derived, owned, rfl⟩

theorem Bank.Sound.initializeAssociated (sound : b.Sound) {mint owner : Pubkey}
    (ran : b.initializeAccount (.associatedToken owner mint) mint owner = .ok b') : b'.Sound := by
  refine sound.initializeAccount ran (fun a m here _ => ?_) fun held => ?_
  · simp only [Pubkey.associatedToken.injEq] at here
    exact here.1
  · simpa only [Pubkey.custodial, Bool.and_eq_true, Bool.not_eq_true'] using held

/-- Rewriting the authority of a mint, or adding an empty one, keeps the ledger sound. -/
theorem Bank.Sound.setMint (sound : b.Sound) {mint : Pubkey} {m : Mint} (same : m.supply = b.supply mint) :
    Bank.Sound ⟨b.mints.insert mint m, b.accounts⟩ := by
  have supply : ∀ k, Bank.supply ⟨b.mints.insert mint m, b.accounts⟩ k = b.supply k := by
    intro k
    simp only [Bank.supply, lookup_insert_ite]
    split
    · rename_i here
      rw [here, Option.elim_some, same, Bank.supply]
    · rfl
  constructor
  · intro k t found
    obtain ⟨m', atMint⟩ := sound.minted found
    simp only [lookup_insert_ite]
    split
    · exact ⟨m, rfl⟩
    · exact ⟨m', atMint⟩
  · exact fun k => (sound.conserved k).trans (supply k).symm
  · exact fun k => (supply k).le.trans (sound.bounded k)
  · exact sound.undelegated
  · exact sound.associated
  · exact sound.custody

theorem Bank.Sound.initializeMint (sound : b.Sound) {mint : Pubkey} {program : TokenProgram}
    {authority : Option Pubkey} {decimals : Nat} {freezeAuthority : Option Pubkey}
    {extensions : List ExtensionType}
    (ran : b.initializeMint mint program authority decimals freezeAuthority extensions = .ok b') : b'.Sound := by
  obtain ⟨⟨fresh, _⟩, rfl⟩ := Bank.initializeMint_eq_ok.mp ran
  exact sound.setMint (by simp only [Bank.supply, fresh, Option.elim_none])

theorem Bank.Sound.setMintAuthority (sound : b.Sound) {mint authority : Pubkey} {newAuthority : Option Pubkey}
    (ran : b.setMintAuthority mint authority newAuthority = .ok b') : b'.Sound := by
  obtain ⟨m, atMint, _, rfl⟩ := Bank.setMintAuthority_eq_ok.mp ran
  exact sound.setMint (Bank.supply_of_lookup atMint).symm

/-- Every instruction of the token program keeps the ledger sound, as long as its signers can sign. -/
theorem Bank.Sound.execute (sound : b.Sound) {i : TokenInstruction} (ran : b.execute i = .ok b')
    (signed : ∀ a ∈ i.signers, a.canSign = true) : b'.Sound := by
  have same : ∀ account t, b.accounts.lookup account = some t →
      ∀ a m, account = .associatedToken a m → a.canSign = false → t.owner = a := by
    intro account t found a m here derived
    subst here
    exact sound.associated a m t found derived
  cases i with
  | transfer => exact sound.transfer ran
  | mintTo => exact sound.mintTo ran
  | burn => exact sound.burn ran
  | approve =>
    obtain ⟨t, found, rfl, rfl⟩ := Bank.approve_eq_ok.mp ran
    have owner := signed _ List.mem_cons_self
    exact sound.rewrite found rfl rfl (fun derived => absurd (owner.symm.trans derived) Bool.noConfusion)
      (same _ t found) (sound.not_custodial found (Or.inl owner))
  | revoke =>
    obtain ⟨t, found, rfl, rfl⟩ := Bank.revoke_eq_ok.mp ran
    have owner := signed _ List.mem_cons_self
    exact sound.rewrite found rfl rfl (fun _ => rfl) (same _ t found) (sound.not_custodial found (Or.inl owner))
  | setAccountOwner =>
    obtain ⟨t, found, rfl, rfl⟩ := Bank.setAccountOwner_eq_ok.mp ran
    have owner := signed _ List.mem_cons_self
    refine sound.rewrite found rfl rfl (fun _ => rfl) (fun a m here derived => ?_)
      (sound.not_custodial found (Or.inl owner))
    rw [same _ t found a m here derived] at owner
    exact absurd (owner.symm.trans derived) Bool.noConfusion
  | setCloseAuthority =>
    obtain ⟨t, found, rfl, rfl⟩ := Bank.setCloseAuthority_eq_ok.mp ran
    have undelegated : t.owner.canSign = false → t.delegate = none := sound.undelegated found
    exact sound.rewrite found rfl rfl undelegated (same _ t found)
      (sound.not_custodial found (Or.inr (signed _ List.mem_cons_self)))
  | setMintAuthority => exact sound.setMintAuthority ran
  | closeAccount => exact sound.closeAccount ran
  | createAssociatedAccount => exact sound.initializeAssociated ran
  | initializeAccount =>
    have owner := signed _ List.mem_cons_self
    refine sound.initializeAccount ran (fun a m here _ => ?_) fun held => ?_
    · rw [here] at owner
      cases owner
    · cases (Pubkey.not_custodial_of_canSign owner).symm.trans held
  | initializeMint => exact sound.initializeMint ran

end Sound

end Upshift
