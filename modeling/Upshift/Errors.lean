import Mathlib.Tactic.Common

namespace Upshift

/-- The vault program's `ErrorCode`, in its declaration order. -/
inductive VaultError
  | notOperator
  | zeroAmount
  | insufficientAmount
  | aumIncreaseTooBig
  | aumDecreaseTooBig
  | withdrawalFeeTooHigh
  | aumLimitTooHigh
  | notAdmin
  | vaultPaused
  | invalidNominatedAdmin
  | nominationExpired
  | mathError
  | numberOverflow
  | notEnoughLiquidity
  | unauthorizedAdmin
  | vaultNotEmpty
  | notProtocolAuthority
  | invalidAuthority
  | slippageExceeded
  | sharePriceUndefined
  | invalidShareOffset
  | withdrawalQueueRequired
  | invalidWithdrawalQueueAuthority
  | wrongWithdrawalQueueSigner
  | withdrawalQueueAlreadyAttached
  | withdrawalQueueNotAttached
  | invalidSubaccount
  | subaccountDelegationMissing
  | subaccountNotEmpty
  | lossExceedsShortfall
  deriving DecidableEq

/-- The queue program's `ErrorCode`, in its declaration order. -/
inductive QueueError
  | notVaultAdmin
  | mathError
  | vaultMismatch
  | cooldownOutOfBounds
  | fulfillmentWindowOutOfBounds
  | queueNotActiveOnVault
  | unsupportedDepositMint
  | zeroShares
  | invalidRecipient
  | notRequestOwner
  | requestExpired
  | staleRequestSequence
  | cooldownNotElapsed
  | finalizerNotAllowed
  | notVaultAdminOrOperator
  | requestAlreadyEligible
  | unsupportedShareMint
  | nothingToSweep
  | invalidSweepDestination
  | payoutBelowFloor
  deriving DecidableEq

/-- Refusals raised by the account constraints before a handler runs. -/
inductive AnchorError
  | accountNotInitialized
  | accountAlreadyInUse
  | constraintSeeds
  | constraintHasOne
  | constraintAddress
  | constraintTokenMint
  | constraintTokenOwner
  | constraintMintDecimals
  | constraintMintMintAuthority
  | constraintAssociated
  | accountNotSigner
  | accountOwnedByWrongProgram
  deriving DecidableEq

inductive TokenError
  | uninitializedState
  | alreadyInUse
  | insufficientFunds
  | mintMismatch
  | ownerMismatch
  | fixedSupply
  | overflow
  | nonNativeHasBalance
  | mintCannotFreeze
  | accountFrozen
  | invalidState
  deriving DecidableEq

/-- `arithmetic` is the abort of an unchecked operation in a build with overflow checks, and
`metadata` what the token metadata program answers. -/
inductive Error
  | vault (code : VaultError)
  | queue (code : QueueError)
  | anchor (code : AnchorError)
  | token (code : TokenError)
  | metadata (code : Nat)
  | arithmetic
  deriving DecidableEq

abbrev Result := Except Error

end Upshift
