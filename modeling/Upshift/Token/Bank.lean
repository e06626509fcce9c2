import Upshift.Address
import Upshift.Errors
import Upshift.Lib.Guard
import Upshift.Lib.KeyedStore

namespace Upshift
open Guard KeyedStore

inductive TokenProgram
  | token
  | token2022
  deriving DecidableEq

/-- Extensions of a Token-2022 mint. -/
inductive ExtensionType
  | metadataPointer
  | tokenMetadata
  | permanentDelegate
  | other (n : Nat)
  deriving DecidableEq

structure Mint where
  program : TokenProgram
  mintAuthority : Option Pubkey
  supply : Nat
  decimals : Nat
  freezeAuthority : Option Pubkey
  extensions : List ExtensionType
  deriving DecidableEq

structure TokenAccount where
  mint : Pubkey
  owner : Pubkey
  amount : Nat
  delegate : Option Pubkey
  delegatedAmount : Nat
  closeAuthority : Option Pubkey
  deriving DecidableEq

/-- Every mint and token account, as the token program keeps them. Amounts move exactly, and a mint's
extensions take no part in the instructions below. A permanent delegate and the freezing of accounts
are added in `Upshift.Isolation.Issuers`. -/
structure Bank where
  mints : Store Pubkey Mint
  accounts : Store Pubkey TokenAccount

def Bank.empty : Bank := ⟨∅, ∅⟩

def Bank.mint (b : Bank) (k : Pubkey) : Result Mint := fetch b.mints k (.token .uninitializedState)

def Bank.account (b : Bank) (k : Pubkey) : Result TokenAccount :=
  fetch b.accounts k (.token .uninitializedState)

/-- The amount at an address, zero where there is no account. -/
def Bank.balance (b : Bank) (k : Pubkey) : Nat := (b.accounts.lookup k).elim 0 TokenAccount.amount

/-- The supply of a mint, zero where there is none. -/
def Bank.supply (b : Bank) (k : Pubkey) : Nat := (b.mints.lookup k).elim 0 Mint.supply

/-- What an account holds of a mint. -/
def TokenAccount.holding (mint : Pubkey) (t : TokenAccount) : Nat := if t.mint = mint then t.amount else 0

/-- What the accounts of a mint hold together. -/
def Bank.held (b : Bank) (mint : Pubkey) : Nat := total (TokenAccount.holding mint) b.accounts

/-- A debit is authorized by the owner, or by the delegate out of its allowance. An exhausted
delegation is cleared. -/
def TokenAccount.spend (t : TokenAccount) (authority : Pubkey) (amount : Nat) : Result TokenAccount :=
  if t.delegate = some authority then do
    require (amount ≤ t.delegatedAmount) (.token .insufficientFunds)
    let left := t.delegatedAmount - amount
    return { t with delegate := if left = 0 then none else t.delegate, delegatedAmount := left }
  else do
    require (authority = t.owner) (.token .ownerMismatch)
    return t

/-- What is nobody's, anybody may burn; of the rest, a burn is a debit. -/
def TokenAccount.spendToBurn (t : TokenAccount) (authority : Pubkey) (amount : Nat) : Result TokenAccount :=
  if t.owner.ownerless then return t else t.spend authority amount

/-- Callers quote the decimals of the mint they pass, so that check is left out. A transfer from
an account to itself passes the same checks and changes nothing. -/
def Bank.transferChecked (b : Bank) (source mint destination authority : Pubkey) (amount : Nat) :
    Result Bank := do
  let src ← b.account source
  let dst ← b.account destination
  let _ ← b.mint mint
  require (amount ≤ src.amount) (.token .insufficientFunds)
  require (src.mint = mint) (.token .mintMismatch)
  require (dst.mint = mint) (.token .mintMismatch)
  let spent ← src.spend authority amount
  if source = destination then
    return b
  else do
    let received ← okOr (checkedAdd u64Max dst.amount amount) (.token .overflow)
    return { b with
      accounts := (b.accounts.insert source { spent with amount := src.amount - amount }).insert
        destination { dst with amount := received } }

def Bank.mintToChecked (b : Bank) (mint account authority : Pubkey) (amount : Nat) : Result Bank := do
  let m ← b.mint mint
  let dst ← b.account account
  require (dst.mint = mint) (.token .mintMismatch)
  require (m.mintAuthority.isSome) (.token .fixedSupply)
  require (m.mintAuthority = some authority) (.token .ownerMismatch)
  let received ← okOr (checkedAdd u64Max dst.amount amount) (.token .overflow)
  let supply ← okOr (checkedAdd u64Max m.supply amount) (.token .overflow)
  return {
    mints := b.mints.insert mint { m with supply := supply }
    accounts := b.accounts.insert account { dst with amount := received } }

def Bank.burnChecked (b : Bank) (account mint authority : Pubkey) (amount : Nat) : Result Bank := do
  let src ← b.account account
  let m ← b.mint mint
  require (amount ≤ src.amount) (.token .insufficientFunds)
  require (src.mint = mint) (.token .mintMismatch)
  let spent ← src.spendToBurn authority amount
  let supply ← okOr (checkedSub m.supply amount) (.token .overflow)
  return {
    mints := b.mints.insert mint { m with supply := supply }
    accounts := b.accounts.insert account { spent with amount := src.amount - amount } }

def Bank.approve (b : Bank) (source delegate owner : Pubkey) (amount : Nat) : Result Bank := do
  let src ← b.account source
  require (owner = src.owner) (.token .ownerMismatch)
  return { b with
    accounts := b.accounts.insert source { src with delegate := some delegate, delegatedAmount := amount } }

def Bank.revoke (b : Bank) (source owner : Pubkey) : Result Bank := do
  let src ← b.account source
  require (owner = src.owner) (.token .ownerMismatch)
  return { b with accounts := b.accounts.insert source { src with delegate := none, delegatedAmount := 0 } }

/-- A change of owner drops the delegation, and leaves the close authority. -/
def Bank.setAccountOwner (b : Bank) (account newOwner owner : Pubkey) : Result Bank := do
  let t ← b.account account
  require (owner = t.owner) (.token .ownerMismatch)
  return { b with
    accounts := b.accounts.insert account { t with owner := newOwner, delegate := none, delegatedAmount := 0 } }

/-- The key that may close an account: its close authority, or else its owner. -/
def TokenAccount.closer (t : TokenAccount) : Pubkey := t.closeAuthority.getD t.owner

def Bank.setCloseAuthority (b : Bank) (account authority : Pubkey) (newAuthority : Option Pubkey) : Result Bank := do
  let t ← b.account account
  require (authority = t.closer) (.token .ownerMismatch)
  return { b with accounts := b.accounts.insert account { t with closeAuthority := newAuthority } }

def Bank.setMintAuthority (b : Bank) (mint authority : Pubkey) (newAuthority : Option Pubkey) :
    Result Bank := do
  let m ← b.mint mint
  require (m.mintAuthority.isSome) (.token .fixedSupply)
  require (m.mintAuthority = some authority) (.token .ownerMismatch)
  return { b with mints := b.mints.insert mint { m with mintAuthority := newAuthority } }

/-- What is nobody's, anybody may close. -/
def Bank.closeAccount (b : Bank) (account authority : Pubkey) : Result Bank := do
  let t ← b.account account
  require (t.amount = 0) (.token .nonNativeHasBalance)
  require (t.owner.ownerless ∨ authority = t.closer) (.token .ownerMismatch)
  return { b with accounts := b.accounts.erase account }

/-- No account of either kind lives at the address yet. -/
def Bank.vacant (b : Bank) (k : Pubkey) : Prop := b.mints.lookup k = none ∧ b.accounts.lookup k = none

instance (b : Bank) (k : Pubkey) : Decidable (b.vacant k) :=
  inferInstanceAs (Decidable (_ ∧ _))

def Bank.initializeAccount (b : Bank) (account mint owner : Pubkey) : Result Bank := do
  let _ ← b.mint mint
  require (b.vacant account) (.token .alreadyInUse)
  let fresh : TokenAccount :=
    { mint := mint, owner := owner, amount := 0, delegate := none, delegatedAmount := 0, closeAuthority := none }
  return { b with accounts := b.accounts.insert account fresh }

def Bank.initializeMint (b : Bank) (mint : Pubkey) (program : TokenProgram) (authority : Option Pubkey)
    (decimals : Nat) (freezeAuthority : Option Pubkey) (extensions : List ExtensionType) : Result Bank := do
  require (b.vacant mint) (.token .alreadyInUse)
  let fresh : Mint :=
    { program := program, mintAuthority := authority, supply := 0, decimals := decimals,
      freezeAuthority := freezeAuthority, extensions := extensions }
  return { b with mints := b.mints.insert mint fresh }

/-- What anybody may ask of the token program directly. -/
inductive TokenInstruction
  | transfer (source mint destination authority : Pubkey) (amount : UInt64)
  | mintTo (mint account authority : Pubkey) (amount : UInt64)
  | burn (account mint authority : Pubkey) (amount : UInt64)
  | approve (source delegate owner : Pubkey) (amount : UInt64)
  | revoke (source owner : Pubkey)
  | setAccountOwner (account newOwner owner : Pubkey)
  | setCloseAuthority (account authority : Pubkey) (newAuthority : Option Pubkey)
  | setMintAuthority (mint authority : Pubkey) (newAuthority : Option Pubkey)
  | closeAccount (account authority : Pubkey)
  | createAssociatedAccount (owner mint : Pubkey)
  | initializeAccount (account mint owner : Pubkey)
  | initializeMint (mint : Pubkey) (program : TokenProgram) (authority : Pubkey) (decimals : UInt8)
      (freezeAuthority : Option Pubkey) (extensions : List ExtensionType)

/-- The key whose signature the instruction needs. A fresh account signs for its own creation;
anybody may create an associated account. -/
def TokenInstruction.signers : TokenInstruction → List Pubkey
  | .transfer _ _ _ authority _ => [authority]
  | .mintTo _ _ authority _ => [authority]
  | .burn _ _ authority _ => [authority]
  | .approve _ _ owner _ => [owner]
  | .revoke _ owner => [owner]
  | .setAccountOwner _ _ owner => [owner]
  | .setCloseAuthority _ authority _ => [authority]
  | .setMintAuthority _ authority _ => [authority]
  | .closeAccount _ authority => [authority]
  | .createAssociatedAccount _ _ => []
  | .initializeAccount account _ _ => [account]
  | .initializeMint mint _ _ _ _ _ => [mint]

def Bank.execute (b : Bank) : TokenInstruction → Result Bank
  | .transfer source mint destination authority amount =>
    b.transferChecked source mint destination authority amount.toNat
  | .mintTo mint account authority amount => b.mintToChecked mint account authority amount.toNat
  | .burn account mint authority amount => b.burnChecked account mint authority amount.toNat
  | .approve source delegate owner amount => b.approve source delegate owner amount.toNat
  | .revoke source owner => b.revoke source owner
  | .setAccountOwner account newOwner owner => b.setAccountOwner account newOwner owner
  | .setCloseAuthority account authority newAuthority => b.setCloseAuthority account authority newAuthority
  | .setMintAuthority mint authority newAuthority => b.setMintAuthority mint authority newAuthority
  | .closeAccount account authority => b.closeAccount account authority
  | .createAssociatedAccount owner mint => b.initializeAccount (.associatedToken owner mint) mint owner
  | .initializeAccount account mint owner => b.initializeAccount account mint owner
  | .initializeMint mint program authority decimals freezeAuthority extensions =>
    b.initializeMint mint program (some authority) decimals.toNat freezeAuthority extensions

end Upshift
