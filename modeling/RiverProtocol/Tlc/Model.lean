import RiverProtocol.Common
import RiverProtocol.Lib.Balances

/-!
# The TLC token and its vesting schedules

The base token is a standard ERC20: balances, and for each account the one its
votes are delegated to.  The address of the escrow of a schedule is a hash of
its index; the calls take it as the function `escrow`.
-/

namespace RiverProtocol

open Checked Outcome

namespace Tlc

/-- The reverts of the token, with the data they carry. -/
inductive Error where
  | panic (reason : Panic)
  -- LibErrors
  | unauthorized (caller : Address)
  | invalidZeroAddress
  -- the base token
  | mintToTheZeroAddress
  | transferFromTheZeroAddress
  | transferToTheZeroAddress
  | transferAmountExceedsBalance
  -- VestingSchedulesV2
  | vestingScheduleNotFound (index : Nat)
  -- IERC20VestableVotesUpgradeableV1
  | unsufficientVestingScheduleCreatorBalance
  | invalidVestingScheduleParameter (message : String)
  | vestingScheduleNotRevocableInPast
  | vestingScheduleNotRevocable
  | vestingScheduleIsLocked
  | invalidRevokedVestingScheduleEnd
  | zeroReleasableAmount
  | globalUnlockUnderlfow
  deriving DecidableEq, Repr

instance : HasPanic Error := ⟨.panic⟩

/-- `VestingSchedulesV2.VestingSchedule`.  Times and durations are in
seconds. -/
structure VestingSchedule where
  start : Nat
  /-- `end` -/
  endTime : Nat
  cliffDuration : Nat
  lockDuration : Nat
  duration : Nat
  periodDuration : Nat
  amount : Nat
  creator : Address
  beneficiary : Address
  revocable : Bool
  releasedAmount : Nat
  deriving DecidableEq, Repr

/-- `_computeVestedAmount` -/
def VestingSchedule.computeVestedAmount (schedule : VestingSchedule) (time : Nat) :
    Except Error Nat := do
  let cliffEnd ← uadd64 schedule.start schedule.cliffDuration
  if time < cliffEnd then
    return 0
  else do
    let vestingEnd ← uadd64 schedule.start schedule.duration
    if time ≥ vestingEnd then
      return schedule.amount
    else do
      let timeFromStart ← usub time schedule.start
      let uncounted ← umod timeFromStart schedule.periodDuration
      let vestedDuration ← usub timeFromStart uncounted
      let weighted ← umul vestedDuration schedule.amount
      udiv weighted schedule.duration

/-- A month of the global unlock schedule: `365 days / 12`. -/
def unlockMonth : Nat := 365 * 86400 / 12

/-- `_computeGlobalUnlocked` -/
def computeGlobalUnlocked (scheduledAmount timeSinceLocalLockEnd : Nat) :
    Except Error Nat := do
  let unlockedAmount ←
    umul (scheduledAmount / 24) (timeSinceLocalLockEnd / unlockMonth)
  return if unlockedAmount > scheduledAmount then scheduledAmount
    else unlockedAmount

/-- `INITIAL_SUPPLY`: one billion tokens. -/
def initialSupply : Nat := 1000000000 * 10 ^ 18

/-- The parameters of `createVestingSchedule`. -/
structure NewSchedule where
  start : Nat
  cliffDuration : Nat
  duration : Nat
  periodDuration : Nat
  lockDuration : Nat
  revocable : Bool
  amount : Nat
  beneficiary : Address
  delegatee : Address
  ignoreGlobalUnlockSchedule : Bool

end Tlc

/-- Storage of the token. -/
structure Tlc where
  balanceOf : Address → Nat
  delegates : Address → Address
  vestingSchedules : List Tlc.VestingSchedule
  ignoreGlobalUnlockSchedule : Nat → Bool

namespace Tlc

/-- Storage before the initializer. -/
def fresh : Tlc :=
  { balanceOf := fun _ => 0
    delegates := fun _ => .zero
    vestingSchedules := []
    ignoreGlobalUnlockSchedule := fun _ => false }

/-- `_mint` -/
def mint (tlc : Tlc) (account : Address) (value : Nat) : Except Error Tlc := do
  require (account ≠ .zero) .mintToTheZeroAddress
  return { tlc with balanceOf := Balances.credit tlc.balanceOf account value }

/-- `_transfer` -/
def transfer (tlc : Tlc) (sender recipient : Address) (value : Nat) :
    Except Error Tlc := do
  require (sender ≠ .zero) .transferFromTheZeroAddress
  require (recipient ≠ .zero) .transferToTheZeroAddress
  require (value ≤ tlc.balanceOf sender) .transferAmountExceedsBalance
  return { tlc with
    balanceOf := Balances.move tlc.balanceOf sender recipient value }

/-- `_delegate` -/
def delegate (tlc : Tlc) (delegator delegatee : Address) : Tlc :=
  { tlc with
    delegates := Function.update tlc.delegates delegator delegatee }

def initTLCV1 (account : Address) : Except Error Tlc := do
  require (account ≠ .zero) .invalidZeroAddress
  fresh.mint account initialSupply

/-- `VestingSchedulesV2.get` -/
def getVestingSchedule (tlc : Tlc) (index : Nat) :
    Except Error VestingSchedule :=
  fetch tlc.vestingSchedules index (.vestingScheduleNotFound index)

def setVestingSchedule (tlc : Tlc) (index : Nat)
    (schedule : VestingSchedule) : Tlc :=
  { tlc with vestingSchedules := tlc.vestingSchedules.set index schedule }

def computeVestingVestedAmount (tlc : Tlc) (now index : Nat) :
    Except Error Nat := do
  let schedule ← tlc.getVestingSchedule index
  schedule.computeVestedAmount (LibUint256.min now schedule.endTime)

/-- `_computeVestingReleasableAmount` -/
def computeReleasableAmount (tlc : Tlc) (schedule : VestingSchedule)
    (revertIfLocked : Bool) (now index : Nat) : Except Error Nat := do
  let lockEnd ← uadd64 schedule.start schedule.lockDuration
  if now < lockEnd then
    if revertIfLocked then
      .error .vestingScheduleIsLocked
    else
      return 0
  else do
    let releasedAmount := schedule.releasedAmount
    let vestedAmount ← schedule.computeVestedAmount
      (if now > schedule.endTime then schedule.endTime else now)
    if vestedAmount > releasedAmount then
      if tlc.ignoreGlobalUnlockSchedule index then
        return vestedAmount - releasedAmount
      else do
        let timeSinceLocalLockEnd ← usub now lockEnd
        let globalUnlocked ←
          computeGlobalUnlocked schedule.amount timeSinceLocalLockEnd
        require (releasedAmount ≤ globalUnlocked) .globalUnlockUnderlfow
        usub (LibUint256.min vestedAmount globalUnlocked) releasedAmount
    else
      return 0

def computeVestingReleasableAmount (tlc : Tlc) (now index : Nat) :
    Except Error Nat := do
  let schedule ← tlc.getVestingSchedule index
  tlc.computeReleasableAmount schedule false now index

/-- The parameter checks of `_createVestingSchedule`, in its order. -/
def validateScheduleParameters (schedule : NewSchedule) :
    Except Error Unit := do
  let invalid := Error.invalidVestingScheduleParameter
  require (schedule.beneficiary ≠ .zero)
    (invalid "Vesting schedule beneficiary must be non zero address")
  require (schedule.duration ≠ 0)
    (invalid "Vesting schedule duration must be > 0")
  require (schedule.amount ≠ 0)
    (invalid "Vesting schedule amount must be > 0")
  require (schedule.periodDuration ≠ 0)
    (invalid "Vesting schedule period must be > 0")
  let durationRest ← umod schedule.duration schedule.periodDuration
  require (durationRest = 0)
    (invalid "Vesting schedule duration must split in exact periods")
  let cliffRest ← umod schedule.cliffDuration schedule.periodDuration
  require (cliffRest = 0)
    (invalid "Vesting schedule cliff duration must split in exact periods")
  require (schedule.cliffDuration ≤ schedule.duration)
    (invalid "Vesting schedule duration must be greater than or equal to the cliff duration")
  let weighted ← umul schedule.amount schedule.periodDuration
  let perPeriod ← udiv weighted schedule.duration
  require (perPeriod ≠ 0)
    (invalid "Vesting schedule amount too low for duration and period")

def createVestingSchedule (tlc : Tlc) (escrow : Nat → Address) (now : Nat)
    (creator : Address) (schedule : NewSchedule) :
    Except Error (Tlc × Nat) := do
  require (schedule.amount ≤ tlc.balanceOf creator)
    .unsufficientVestingScheduleCreatorBalance
  validateScheduleParameters schedule
  let start := if schedule.start = 0 then toUint64 now else schedule.start
  let endTime ← uadd64 start schedule.duration
  let vestingSchedule : VestingSchedule :=
    { start
      endTime
      lockDuration := schedule.lockDuration
      cliffDuration := schedule.cliffDuration
      duration := schedule.duration
      periodDuration := schedule.periodDuration
      amount := schedule.amount
      creator
      beneficiary := schedule.beneficiary
      revocable := schedule.revocable
      releasedAmount := 0 }
  let index := tlc.vestingSchedules.length
  let tlc : Tlc := { tlc with
    vestingSchedules := tlc.vestingSchedules ++ [vestingSchedule]
    ignoreGlobalUnlockSchedule :=
      Function.update tlc.ignoreGlobalUnlockSchedule index
        schedule.ignoreGlobalUnlockSchedule }
  let tlc ← tlc.transfer creator (escrow index) schedule.amount
  let delegatee :=
    if schedule.delegatee = .zero then schedule.beneficiary
    else schedule.delegatee
  return (tlc.delegate (escrow index) delegatee, index)

/-- The end date a revocation sets: the present one by default. -/
def revokedEnd (now newEnd : Nat) : Except Error Nat :=
  if newEnd = 0 then
    return toUint64 now
  else do
    require (now ≤ newEnd) .vestingScheduleNotRevocableInPast
    return newEnd

/-- Return the tokens that will never be vested, if there are any. -/
def returnTokens (tlc : Tlc) (escrow creator : Address)
    (returnedAmount : Nat) : Except Error Tlc :=
  if returnedAmount > 0 then
    tlc.transfer escrow creator returnedAmount
  else
    return tlc

def revokeVestingSchedule (tlc : Tlc) (escrow : Nat → Address) (now : Nat)
    (sender : Address) (index newEnd : Nat) : Except Error (Tlc × Nat) := do
  let newEnd ← revokedEnd now newEnd
  let schedule ← tlc.getVestingSchedule index
  require (schedule.revocable = true) .vestingScheduleNotRevocable
  require (schedule.start ≤ newEnd ∧ newEnd ≤ schedule.endTime)
    .invalidRevokedVestingScheduleEnd
  require (schedule.creator = sender) (.unauthorized sender)
  let vestedAmountAtOldEnd ← schedule.computeVestedAmount schedule.endTime
  let vestedAmountAtNewEnd ← schedule.computeVestedAmount newEnd
  let returnedAmount ← usub vestedAmountAtOldEnd vestedAmountAtNewEnd
  let tlc ← tlc.returnTokens (escrow index) sender returnedAmount
  return (tlc.setVestingSchedule index { schedule with endTime := newEnd },
    returnedAmount)

def releaseVestingSchedule (tlc : Tlc) (escrow : Nat → Address) (now : Nat)
    (sender : Address) (index : Nat) : Except Error (Tlc × Nat) := do
  let schedule ← tlc.getVestingSchedule index
  require (sender = schedule.beneficiary) (.unauthorized sender)
  let releasable ← tlc.computeReleasableAmount schedule true now index
  require (releasable ≠ 0) .zeroReleasableAmount
  let tlc ← tlc.transfer (escrow index) sender releasable
  let releasedAmount ← uadd schedule.releasedAmount releasable
  return (tlc.setVestingSchedule index { schedule with releasedAmount },
    releasable)

def delegateVestingEscrow (tlc : Tlc) (escrow : Nat → Address)
    (sender : Address) (index : Nat) (delegatee : Address) :
    Except Error Tlc := do
  let schedule ← tlc.getVestingSchedule index
  require (sender = schedule.beneficiary) (.unauthorized sender)
  return tlc.delegate (escrow index) delegatee

end Tlc

end RiverProtocol
