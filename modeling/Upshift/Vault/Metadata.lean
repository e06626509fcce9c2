import Upshift.Chain

namespace Upshift
open Guard KeyedStore

/-- The accounts of both metadata instructions. -/
structure ShareTokenMetadata where
  vaultState : Pubkey
  depositMint : Pubkey
  shareMint : Pubkey
  metadataAccount : Pubkey
  admin : Pubkey
  deriving DecidableEq

structure DataV2 where
  name : String
  symbol : String
  uri : String

/-- What the vault asks of the metadata program, which its own address signs. -/
inductive MetadataCall
  | createMetadataAccountV3 (metadata mint mintAuthority payer updateAuthority : Pubkey) (data : DataV2)
      (isMutable : Bool)
  | updateMetadataAccountV2 (metadata updateAuthority : Pubkey) (data : DataV2)

/-- The metadata program, by the error it answers a call with. Of the accounts it is handed, only the metadata
account and the payer are writable, and it keeps neither tokens nor anything else of the chain. -/
abbrev MetadataProgram := MetadataCall → Option Nat

/-- A call by `invoke_signed`. -/
def MetadataCall.invoke (call : MetadataCall) (program : MetadataProgram) : Result Unit :=
  match program call with
  | none => return ()
  | some code => throw (.metadata code)

/-- The share mint is not held to its seeds here, only to its authority, and has to be one of the legacy
token program. -/
def ShareTokenMetadata.accounts (a : ShareTokenMetadata) (c : Chain) : Result VaultState := do
  let v ← fetch c.vaults a.vaultState (.anchor .accountNotInitialized)
  let _ ← fetch c.bank.mints a.depositMint (.anchor .accountNotInitialized)
  let m ← fetch c.bank.mints a.shareMint (.anchor .accountNotInitialized)
  require (m.program = .token) (.anchor .accountOwnedByWrongProgram)
  require (a.admin = v.admin) (.vault .unauthorizedAdmin)
  require (a.vaultState = .vaultState a.depositMint v.vaultVersion) (.anchor .constraintSeeds)
  require (v.paused = false) (.vault .vaultPaused)
  require (m.mintAuthority = some a.vaultState) (.anchor .constraintMintMintAuthority)
  require (a.metadataAccount = .metadata a.shareMint) (.anchor .constraintSeeds)
  return v

/-- The checks, and then the call, which leaves the chain as it was. -/
def ShareTokenMetadata.invoke (a : ShareTokenMetadata) (c : Chain) (program : MetadataProgram) (call : MetadataCall) :
    Result Chain := do
  let _ ← a.accounts c
  call.invoke program
  return c

def CreateShareTokenMetadata.handler (c : Chain) (a : ShareTokenMetadata) (payer : Pubkey) (data : DataV2)
    (program : MetadataProgram) : Result Chain :=
  a.invoke c program
    (.createMetadataAccountV3 a.metadataAccount a.shareMint a.vaultState payer a.vaultState data true)

def UpdateShareTokenMetadata.handler (c : Chain) (a : ShareTokenMetadata) (data : DataV2) (program : MetadataProgram) :
    Result Chain :=
  a.invoke c program (.updateMetadataAccountV2 a.metadataAccount a.vaultState data)

/-- What the account constraints establish. -/
structure ShareTokenMetadata.Valid (a : ShareTokenMetadata) (c : Chain) (v : VaultState) : Prop where
  vault : c.vaults.lookup a.vaultState = some v
  depositMint : ∃ d, c.bank.mints.lookup a.depositMint = some d
  shareMint : ∃ m, c.bank.mints.lookup a.shareMint = some m ∧ m.program = .token ∧ m.mintAuthority = some a.vaultState
  admin : a.admin = v.admin
  key : a.vaultState = .vaultState a.depositMint v.vaultVersion
  running : v.paused = false
  metadataKey : a.metadataAccount = .metadata a.shareMint

section Metadata
variable {a : ShareTokenMetadata} {c c' : Chain} {program : MetadataProgram} {call : MetadataCall}

theorem MetadataCall.invoke_eq_ok {u : Unit} : call.invoke program = .ok u ↔ program call = none := by
  unfold MetadataCall.invoke
  split
  · rename_i silent
    exact iff_of_true rfl silent
  · rename_i code refused
    rw [refused]
    exact iff_of_false (fun failed => by cases failed) fun none => by cases none

theorem ShareTokenMetadata.accounts_eq_ok {v : VaultState} : a.accounts c = .ok v ↔ a.Valid c v := by
  simp only [ShareTokenMetadata.accounts, bind_eq_ok, fetch_eq_ok, require_eq_ok, pure_eq_ok, exists_const]
  constructor
  · rintro ⟨v, vault, d, atDeposit, m, atShare, legacy, admin, key, running, authority, metadataKey, rfl⟩
    exact ⟨vault, ⟨d, atDeposit⟩, ⟨m, atShare, legacy, authority⟩, admin, key, running, metadataKey⟩
  · rintro ⟨vault, ⟨d, atDeposit⟩, ⟨m, atShare, legacy, authority⟩, admin, key, running, metadataKey⟩
    exact ⟨v, vault, d, atDeposit, m, atShare, legacy, admin, key, running, authority, metadataKey, rfl⟩

/-- A metadata instruction that succeeds passed its checks and changed nothing of the chain. -/
theorem ShareTokenMetadata.invoke_eq_ok :
    a.invoke c program call = .ok c' ↔ (∃ v, a.Valid c v) ∧ program call = none ∧ c' = c := by
  simp only [ShareTokenMetadata.invoke, bind_eq_ok, ShareTokenMetadata.accounts_eq_ok, MetadataCall.invoke_eq_ok,
    pure_eq_ok, exists_const]
  constructor
  · rintro ⟨v, valid, silent, rfl⟩
    exact ⟨⟨v, valid⟩, silent, rfl⟩
  · rintro ⟨⟨v, valid⟩, silent, rfl⟩
    exact ⟨v, valid, silent, rfl⟩

end Metadata

end Upshift
