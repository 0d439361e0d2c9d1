import Mathlib.Data.Fintype.Basic
import RiverProtocol.Lib.Checked

/-!
# Accounts, constants and reverts shared by the contracts
-/

namespace RiverProtocol

open Checked

/-- A 160-bit account address. -/
def Address : Type := Fin (2 ^ 160)

namespace Address

instance : DecidableEq Address := inferInstanceAs (DecidableEq (Fin (2 ^ 160)))

instance : Fintype Address := inferInstanceAs (Fintype (Fin (2 ^ 160)))

instance : Repr Address := inferInstanceAs (Repr (Fin (2 ^ 160)))

/-- The address whose 160 bits are those of `value`. -/
def ofNat (value : Nat) : Address := ⟨value % 2 ^ 160, Nat.mod_lt _ (by decide)⟩

/-- `address(0)` -/
def zero : Address := ofNat 0

instance : Inhabited Address := ⟨zero⟩

end Address

/-- A byte string. -/
abbrev Bytes := List UInt8

/-- One ether in wei. -/
def ether : Nat := 10 ^ 18

/-- `DEPOSIT_SIZE`: the ether a validator deposit takes. -/
def depositSize : Nat := 32 * ether

/-- `LibBasisPoints.BASIS_POINTS_MAX` -/
def basisPointsMax : Nat := 10000

/-- `type(uint256).max` -/
def maxUint256 : Nat := wordLimit - 1

/-- How a call that carries ether fails. -/
inductive CallFailure where
  | insufficientBalance
  | reverted
  deriving DecidableEq, Repr

/-- The reverts of the contracts, with the data they carry. -/
inductive Error where
  | panic (reason : Panic)
  | callFailed (reason : CallFailure)
  | outOfGas
  -- LibErrors
  | unauthorized (caller : Address)
  | invalidCall
  | invalidArgument
  | invalidZeroAddress
  | invalidEmptyString
  | invalidFee
  -- IAllowlistV1
  | invalidCount
  | denied (account : Address)
  | mismatchedArrayLengths
  | attemptToSetDenyPermission
  | attemptToRemoveDenyPermission
  -- ISharesManagerV1 and IWLSETHV1
  | balanceTooLow
  | allowanceTooLow (owner operator : Address) (allowance value : Nat)
  | nullTransfer
  | unauthorizedTransfer (sender recipient : Address)
  | tokenTransferError
  -- IUserDepositManagerV1
  | emptyDeposit
  -- IConsensusLayerDepositManagerV1
  | notEnoughFunds
  | inconsistentPublicKeys
  | inconsistentSignatures
  | noAvailableValidatorKeys
  | invalidPublicKeyCount
  | invalidWithdrawalCredentials
  | errorOnDeposit
  | invalidDepositRoot
  | onlyKeeper
  | operatorAllocationsExceedCommittedBalance
  | slashingContainmentModeEnabled
  -- IOracleManagerV1
  | invalidEpoch (epoch : Nat)
  | invalidValidatorCountReport (provided deposited last : Nat)
  | totalValidatorBalanceIncreaseOutOfBound
      (previous current timeElapsed annualAprUpperBound : Nat)
  | totalValidatorBalanceDecreaseOutOfBound
      (previous current timeElapsed relativeLowerBound : Nat)
  | invalidDecreasingValidatorsExitedBalance (current new : Nat)
  | invalidDecreasingValidatorsSkimmedBalance (current new : Nat)
  -- IRiverV1
  | invalidPulledClFundsAmount (requested received : Nat)
  | zeroMintedShares
  -- IRedeemManagerV1
  | invalidZeroAmount
  | transferError
  | incompatibleArrayLengths
  | redeemRequestOutOfBounds (id : Nat)
  | withdrawalEventOutOfBounds (id : Nat)
  | redeemRequestAlreadyClaimed (id : Nat)
  | doesNotMatch (redeemRequestId withdrawalEventId : Nat)
  | withdrawalExceedsRedeemDemand (withdrawalAmount redeemDemand : Nat)
  | claimRedeemFailed (recipient : Address) (reason : CallFailure)
  | claimRecipientIsDenied
  | claimInitiatorIsDenied
  | recipientIsDenied
  -- IOperatorsRegistryV1
  | operatorNotFound (index : Nat)
  | inactiveOperator (index : Nat)
  | invalidFundedKeyDeletionAttempt
  | invalidUnsortedIndexes
  | invalidArrayLengths
  | invalidEmptyArray
  | invalidKeyCount
  | invalidKeysLength
  | invalidIndexOutOfBounds
  | operatorLimitTooHigh (index limit keyCount : Nat)
  | operatorLimitTooLow (index limit fundedKeyCount : Nat)
  | unorderedOperatorList
  | operatorIgnoredExitRequests (index : Nat)
  | operatorHasInsufficientFundableKeys (index requested available : Nat)
  | allocationWithZeroValidatorCount
  | invalidEmptyStoppedValidatorCountsArray
  | invalidStoppedValidatorCountsSum
  | stoppedValidatorCountsDecreased
  | stoppedValidatorCountsTooHigh
  | noExitRequestsToPerform
  | stoppedValidatorCountArrayShrinking
  | stoppedValidatorCountAboveFundedCount
      (index stoppedCount fundedCount : Nat)
  | exitsRequestedExceedAvailableFundedCount
      (index requested available : Nat)
  | exitsRequestedExceedDemand (requested demand : Nat)
  -- LibBytes
  | sliceOutOfBounds
  -- IOracleV1
  | epochTooOld (provided minimum : Nat)
  | alreadyReported (epoch : Nat) (member : Address)
  | addressAlreadyInUse (account : Address)
  deriving DecidableEq, Repr

instance : HasPanic Error := ⟨.panic⟩

instance : LawfulPanic Error := ⟨fun _ _ same => Error.panic.inj same⟩

/-- `LibSanitize._notZeroAddress` -/
def notZeroAddress (account : Address) : Except Error Unit :=
  Outcome.require (account ≠ .zero) .invalidZeroAddress

/-- `LibSanitize._notEmptyString` -/
def notEmptyString (text : String) : Except Error Unit :=
  Outcome.require (text ≠ "") .invalidEmptyString

namespace LibUint256

def min (left right : Nat) : Nat := if left > right then right else left

def max (left right : Nat) : Nat := if left < right then right else left

def ceil (left right : Nat) : Except Error Nat := do
  let quotient ← udiv left right
  let remainder ← umod left right
  uadd quotient (if remainder > 0 then 1 else 0)

theorem min_eq (left right : Nat) : min left right = Min.min left right := by
  unfold min
  split <;> omega

/-- The rounded-up quotient is the least one that covers. -/
theorem ceil_ok {left right quotient : Nat}
    (returned : ceil left right = .ok quotient) :
    left ≤ right * quotient ∧
      (quotient ≠ 0 → right * (quotient - 1) < left) := by
  simp only [ceil, Outcome.bind_eq_ok, udiv_eq_ok, umod_eq_ok, uadd_eq_ok]
    at returned
  obtain ⟨_, ⟨nonzero, rfl⟩, _, ⟨-, rfl⟩, -, rfl⟩ := returned
  have whole := Nat.div_add_mod left right
  have below := Nat.mod_lt left (Nat.pos_of_ne_zero nonzero)
  split
  · rw [Nat.add_sub_cancel, Nat.mul_add, Nat.mul_one]
    omega
  · refine ⟨by rw [Nat.add_zero]; omega, fun positive => ?_⟩
    rw [Nat.add_zero] at positive ⊢
    have less : right * (left / right - 1) < right * (left / right) :=
      Nat.mul_lt_mul_of_pos_left
        (Nat.sub_lt (Nat.pos_of_ne_zero positive) (by decide))
        (Nat.pos_of_ne_zero nonzero)
    omega

end LibUint256

end RiverProtocol
