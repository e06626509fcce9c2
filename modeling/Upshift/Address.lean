import Mathlib.Algebra.Group.Int.Defs
import Mathlib.Algebra.Group.Nat.Defs
import Mathlib.Tactic.Common

namespace Upshift

/-- Account addresses. A derived address keeps its seeds, so derivation is injective and two
derivations with different seeds never meet. Bumps are canonical throughout and are left out. -/
inductive Pubkey
  | default
  | incinerator
  | key (n : Nat)
  | programConfig
  | vaultState (depositMint : Pubkey) (vaultVersion : Nat)
  | shareMint (depositMint : Pubkey) (vaultVersion : Nat)
  | vaultToken (depositMint : Pubkey) (vaultVersion : Nat)
  | nominatedAdmin (depositMint : Pubkey) (vaultVersion : Nat)
  | subaccount (vaultState address : Pubkey)
  | withdrawalQueue (vaultState : Pubkey)
  | withdrawalRequest (queue owner : Pubkey) (requestId : Nat)
  | associatedToken (authority mint : Pubkey)
  | metadata (mint : Pubkey)
  deriving DecidableEq

/-- Keys that can sign a transaction. A derived address signs only inside the program that
derives it, and nobody signs for the zero key. -/
def Pubkey.canSign : Pubkey → Bool
  | .key _ => true
  | _ => false

/-- The system program, whose address is the zero key, and the incinerator: token accounts in their
names are nobody's. -/
def Pubkey.ownerless : Pubkey → Bool
  | .default | .incinerator => true
  | _ => false

theorem Pubkey.owned_of_canSign {a : Pubkey} (signs : a.canSign = true) : a.ownerless = false := by
  cases a with
  | key => rfl
  | _ => cases signs

/-- The address `attach_withdrawal_queue` accepts for a vault. -/
def withdrawalQueuePda (vaultState : Pubkey) : Pubkey := .withdrawalQueue vaultState

theorem Pubkey.shareMint_ne_depositMint (depositMint : Pubkey) (vaultVersion : Nat) :
    Pubkey.shareMint depositMint vaultVersion ≠ depositMint := by
  intro same
  have size := congrArg sizeOf same
  simp only [Pubkey.shareMint.sizeOf_spec] at size
  omega

abbrev u32Max : Nat := 2 ^ 32 - 1
abbrev u64Max : Nat := 2 ^ 64 - 1
abbrev u128Max : Nat := 2 ^ 128 - 1
abbrev i64Min : Int := -2 ^ 63
abbrev i64Max : Int := 2 ^ 63 - 1

end Upshift
