import Upshift.Queue.State
import Upshift.Token.Bank
import Upshift.Vault.State

namespace Upshift
open Guard KeyedStore

/-- All the accounts an instruction can read or write, one map for each account type, with the
clock, the upgrade authority of the vault program and the events of the queue program, latest first.
The events that the vault program logs on a deposit, a redemption, an attachment and a detachment
are not recorded. -/
structure Chain where
  bank : Bank
  vaults : Store Pubkey VaultState
  subaccounts : Store Pubkey Subaccount
  nominations : Store Pubkey NominatedAdmin
  config : Option ProgramConfig
  queues : Store Pubkey WithdrawalQueue
  requests : Store Pubkey WithdrawalRequest
  upgradeAuthority : Option Pubkey
  clock : Int
  log : List QueueEvent

/-- Before either program or any token exists. -/
def Chain.genesis (upgradeAuthority : Option Pubkey) : Chain where
  bank := .empty
  vaults := ∅
  subaccounts := ∅
  nominations := ∅
  config := none
  queues := ∅
  requests := ∅
  upgradeAuthority := upgradeAuthority
  clock := 0
  log := []

/-- A vault account under `seeds = [VAULT_STATE_SEED, deposit_mint, vault_version]`. -/
def Chain.vaultAt (c : Chain) (vaultState depositMint : Pubkey) : Result VaultState := do
  let v ← fetch c.vaults vaultState (.anchor .accountNotInitialized)
  let _ ← fetch c.bank.mints depositMint (.anchor .accountNotInitialized)
  require (vaultState = .vaultState depositMint v.vaultVersion) (.anchor .constraintSeeds)
  return v

/-- A token account under `token::mint` and `token::authority`. -/
def Chain.tokenAccount (c : Chain) (account mint authority : Pubkey) : Result TokenAccount := do
  let t ← fetch c.bank.accounts account (.anchor .accountNotInitialized)
  require (t.owner = authority) (.anchor .constraintTokenOwner)
  require (t.mint = mint) (.anchor .constraintTokenMint)
  return t

/-- A token account under `associated_token::mint` and `associated_token::authority`. -/
def Chain.associatedAccount (c : Chain) (account mint authority : Pubkey) : Result TokenAccount := do
  let t ← c.tokenAccount account mint authority
  require (account = .associatedToken authority mint) (.anchor .constraintAssociated)
  return t

/-- The reserve under `seeds = [VAULT_TOKEN_SEED, deposit_mint, vault_version]`. -/
def Chain.reserveAt (c : Chain) (account vaultState depositMint : Pubkey) (vaultVersion : Nat) :
    Result TokenAccount := do
  require (account = .vaultToken depositMint vaultVersion) (.anchor .constraintSeeds)
  c.tokenAccount account depositMint vaultState

/-- The share mint under `seeds = [SHARE_MINT_SEED, deposit_mint, vault_version]`. -/
def Chain.shareMintAt (c : Chain) (shareMint vaultState depositMint : Pubkey) (vaultVersion : Nat) :
    Result Mint := do
  let m ← fetch c.bank.mints shareMint (.anchor .accountNotInitialized)
  require (shareMint = .shareMint depositMint vaultVersion) (.anchor .constraintSeeds)
  require (m.mintAuthority = some vaultState) (.anchor .constraintMintMintAuthority)
  return m

/-- `mint::decimals = deposit_mint.decimals`. -/
def Chain.sameDecimals (c : Chain) (shareMint depositMint : Pubkey) : Result Nat := do
  let share ← fetch c.bank.mints shareMint (.anchor .accountNotInitialized)
  let deposit ← fetch c.bank.mints depositMint (.anchor .accountNotInitialized)
  require (share.decimals = deposit.decimals) (.anchor .constraintMintDecimals)
  return deposit.decimals

/-- A queue account under `seeds = [WITHDRAWAL_QUEUE_SEED, queue.vault_state]`. -/
def Chain.queueAt (c : Chain) (queue : Pubkey) : Result WithdrawalQueue := do
  let q ← fetch c.queues queue (.anchor .accountNotInitialized)
  require (queue = .withdrawalQueue q.vaultState) (.anchor .constraintSeeds)
  return q

/-- A request account under the seeds of its own fields, with `has_one = queue`. -/
def Chain.requestAt (c : Chain) (request queue : Pubkey) : Result WithdrawalRequest := do
  let r ← fetch c.requests request (.anchor .accountNotInitialized)
  require (request = .withdrawalRequest r.queue r.owner r.requestId) (.anchor .constraintSeeds)
  require (r.queue = queue) (.anchor .constraintHasOne)
  return r

section Constraints
variable {c : Chain}

theorem Chain.vaultAt_eq_ok {vaultState depositMint : Pubkey} {v : VaultState} :
    c.vaultAt vaultState depositMint = .ok v ↔ c.vaults.lookup vaultState = some v ∧
      (∃ d, c.bank.mints.lookup depositMint = some d) ∧ vaultState = .vaultState depositMint v.vaultVersion := by
  simp only [Chain.vaultAt, bind_eq_ok, fetch_eq_ok, require_eq_ok, pure_eq_ok, exists_const]
  constructor
  · rintro ⟨v, found, d, atMint, key, rfl⟩
    exact ⟨found, ⟨d, atMint⟩, key⟩
  · rintro ⟨found, ⟨d, atMint⟩, key⟩
    exact ⟨v, found, d, atMint, key, rfl⟩

theorem Chain.tokenAccount_eq_ok {account mint authority : Pubkey} {t : TokenAccount} :
    c.tokenAccount account mint authority = .ok t ↔
      c.bank.accounts.lookup account = some t ∧ t.owner = authority ∧ t.mint = mint := by
  simp only [Chain.tokenAccount, bind_eq_ok, fetch_eq_ok, require_eq_ok, pure_eq_ok, exists_const]
  constructor
  · rintro ⟨t, found, owner, sameMint, rfl⟩
    exact ⟨found, owner, sameMint⟩
  · rintro ⟨found, owner, sameMint⟩
    exact ⟨t, found, owner, sameMint, rfl⟩

theorem Chain.associatedAccount_eq_ok {account mint authority : Pubkey} {t : TokenAccount} :
    c.associatedAccount account mint authority = .ok t ↔ c.bank.accounts.lookup account = some t ∧
      t.owner = authority ∧ t.mint = mint ∧ account = .associatedToken authority mint := by
  simp only [Chain.associatedAccount, Chain.tokenAccount_eq_ok, bind_eq_ok, require_eq_ok, pure_eq_ok,
    exists_const]
  constructor
  · rintro ⟨t, ⟨found, owner, sameMint⟩, derived, rfl⟩
    exact ⟨found, owner, sameMint, derived⟩
  · rintro ⟨found, owner, sameMint, derived⟩
    exact ⟨t, ⟨found, owner, sameMint⟩, derived, rfl⟩

theorem Chain.reserveAt_eq_ok {account vaultState depositMint : Pubkey} {vaultVersion : Nat} {t : TokenAccount} :
    c.reserveAt account vaultState depositMint vaultVersion = .ok t ↔
      account = .vaultToken depositMint vaultVersion ∧ c.bank.accounts.lookup account = some t ∧
        t.owner = vaultState ∧ t.mint = depositMint := by
  simp only [Chain.reserveAt, Chain.tokenAccount_eq_ok, bind_eq_ok, require_eq_ok, exists_const]

theorem Chain.shareMintAt_eq_ok {shareMint vaultState depositMint : Pubkey} {vaultVersion : Nat} {m : Mint} :
    c.shareMintAt shareMint vaultState depositMint vaultVersion = .ok m ↔
      c.bank.mints.lookup shareMint = some m ∧ shareMint = .shareMint depositMint vaultVersion ∧
        m.mintAuthority = some vaultState := by
  simp only [Chain.shareMintAt, bind_eq_ok, fetch_eq_ok, require_eq_ok, pure_eq_ok, exists_const]
  constructor
  · rintro ⟨m, found, key, authority, rfl⟩
    exact ⟨found, key, authority⟩
  · rintro ⟨found, key, authority⟩
    exact ⟨m, found, key, authority, rfl⟩

theorem Chain.sameDecimals_eq_ok {shareMint depositMint : Pubkey} {decimals : Nat} :
    c.sameDecimals shareMint depositMint = .ok decimals ↔
      ∃ m d, c.bank.mints.lookup shareMint = some m ∧ c.bank.mints.lookup depositMint = some d ∧
        m.decimals = d.decimals ∧ d.decimals = decimals := by
  simp only [Chain.sameDecimals, bind_eq_ok, fetch_eq_ok, require_eq_ok, pure_eq_ok, exists_const,
    exists_and_left]

theorem Chain.queueAt_eq_ok {queue : Pubkey} {q : WithdrawalQueue} :
    c.queueAt queue = .ok q ↔ c.queues.lookup queue = some q ∧ queue = .withdrawalQueue q.vaultState := by
  simp only [Chain.queueAt, bind_eq_ok, fetch_eq_ok, require_eq_ok, pure_eq_ok, exists_const]
  constructor
  · rintro ⟨q, found, key, rfl⟩
    exact ⟨found, key⟩
  · rintro ⟨found, key⟩
    exact ⟨q, found, key, rfl⟩

theorem Chain.requestAt_eq_ok {request queue : Pubkey} {r : WithdrawalRequest} :
    c.requestAt request queue = .ok r ↔ c.requests.lookup request = some r ∧
      request = .withdrawalRequest r.queue r.owner r.requestId ∧ r.queue = queue := by
  simp only [Chain.requestAt, bind_eq_ok, fetch_eq_ok, require_eq_ok, pure_eq_ok, exists_const]
  constructor
  · rintro ⟨r, found, key, same, rfl⟩
    exact ⟨found, key, same⟩
  · rintro ⟨found, key, same⟩
    exact ⟨r, found, key, same, rfl⟩

/-- What a failed account constraint reports. -/
def Error.OfAnchor (e : Error) : Prop := ∃ code, e = .anchor code

theorem Chain.vaultAt_fails {vaultState depositMint : Pubkey} :
    FailsWith Error.OfAnchor (c.vaultAt vaultState depositMint) := by
  refine .bind (fetch_fails fun _ => ⟨_, rfl⟩) fun _ _ => ?_
  refine .bind (fetch_fails fun _ => ⟨_, rfl⟩) fun _ _ => ?_
  exact .bind (.require fun _ => ⟨_, rfl⟩) fun _ _ => .pure _

theorem Chain.tokenAccount_fails {account mint authority : Pubkey} :
    FailsWith Error.OfAnchor (c.tokenAccount account mint authority) := by
  refine .bind (fetch_fails fun _ => ⟨_, rfl⟩) fun _ _ => ?_
  refine .bind (.require fun _ => ⟨_, rfl⟩) fun _ _ => ?_
  exact .bind (.require fun _ => ⟨_, rfl⟩) fun _ _ => .pure _

theorem Chain.associatedAccount_fails {account mint authority : Pubkey} :
    FailsWith Error.OfAnchor (c.associatedAccount account mint authority) :=
  .bind Chain.tokenAccount_fails fun _ _ => .bind (.require fun _ => ⟨_, rfl⟩) fun _ _ => .pure _

theorem Chain.reserveAt_fails {account vaultState depositMint : Pubkey} {vaultVersion : Nat} :
    FailsWith Error.OfAnchor (c.reserveAt account vaultState depositMint vaultVersion) :=
  .bind (.require fun _ => ⟨_, rfl⟩) fun _ _ => Chain.tokenAccount_fails

theorem Chain.shareMintAt_fails {shareMint vaultState depositMint : Pubkey} {vaultVersion : Nat} :
    FailsWith Error.OfAnchor (c.shareMintAt shareMint vaultState depositMint vaultVersion) := by
  refine .bind (fetch_fails fun _ => ⟨_, rfl⟩) fun _ _ => ?_
  refine .bind (.require fun _ => ⟨_, rfl⟩) fun _ _ => ?_
  exact .bind (.require fun _ => ⟨_, rfl⟩) fun _ _ => .pure _

theorem Chain.sameDecimals_fails {shareMint depositMint : Pubkey} :
    FailsWith Error.OfAnchor (c.sameDecimals shareMint depositMint) := by
  refine .bind (fetch_fails fun _ => ⟨_, rfl⟩) fun _ _ => ?_
  refine .bind (fetch_fails fun _ => ⟨_, rfl⟩) fun _ _ => ?_
  exact .bind (.require fun _ => ⟨_, rfl⟩) fun _ _ => .pure _

theorem Chain.queueAt_fails {queue : Pubkey} : FailsWith Error.OfAnchor (c.queueAt queue) :=
  .bind (fetch_fails fun _ => ⟨_, rfl⟩) fun _ _ => .bind (.require fun _ => ⟨_, rfl⟩) fun _ _ => .pure _

end Constraints

end Upshift
