import RiverProtocol.Lib.Checkpoints
import RiverProtocol.Tlc.Steps

/-!
# The votes of the token

The base token keeps the history of the votes delegated to each account, and
that of the supply.  Every transfer moves votes between the delegates of its
two sides, and every delegation takes the balance of the delegator along.
-/

namespace RiverProtocol

open Checked Outcome Balances Checkpoints

namespace Tlc

inductive VotesError where
  | token (error : Error)
  | panic (reason : Panic)
  -- SafeCastUpgradeable
  | valueDoesNotFit (bits : Nat)
  -- ERC20VotesUpgradeable
  | totalSupplyRisksOverflowingVotes
  | futureLookup
  deriving DecidableEq, Repr

instance : HasPanic VotesError := ⟨.panic⟩

/-- What the token itself raises. -/
def onToken {α : Type} (computation : Except Error α) :
    Except VotesError α :=
  computation.mapError .token

/-- The casts of `SafeCastUpgradeable`. -/
def safeCast (bits value : Nat) : Except VotesError Nat := do
  require (value < 2 ^ bits) (.valueDoesNotFit bits)
  return value

/-- `clock` -/
def clock (blockNumber : Nat) : Except VotesError Nat :=
  safeCast 48 blockNumber

/-- `_writeCheckpoint` -/
def writeCheckpoint (ckpts : List (Checkpoint Nat)) (blockNumber : Nat)
    (op : Nat → Nat → Except VotesError Nat) (delta : Nat) :
    Except VotesError (List (Checkpoint Nat)) := do
  let pos := ckpts.length
  let oldCkpt : Checkpoint Nat :=
    if pos = 0 then { fromBlock := 0, votes := 0 }
    else unsafeAccess ckpts (pos - 1)
  let newWeight ← op oldCkpt.votes delta
  let now ← clock blockNumber
  if pos > 0 ∧ oldCkpt.fromBlock = now then do
    let votes ← safeCast 224 newWeight
    return ckpts.set (pos - 1) { oldCkpt with votes }
  else do
    let fromBlock ← safeCast 32 now
    let votes ← safeCast 224 newWeight
    return ckpts ++ [⟨fromBlock, votes⟩]

/-- One side of `_moveVotingPower`: nothing is written for no delegate. -/
def writeWeight (checkpoints : Address → List (Checkpoint Nat))
    (blockNumber : Nat) (account : Address)
    (op : Nat → Nat → Except VotesError Nat) (amount : Nat) :
    Except VotesError (Address → List (Checkpoint Nat)) :=
  if account ≠ .zero then do
    let ckpts ← writeCheckpoint (checkpoints account) blockNumber op amount
    return Function.update checkpoints account ckpts
  else return checkpoints

/-- `_moveVotingPower` -/
def moveVotingPower (checkpoints : Address → List (Checkpoint Nat))
    (blockNumber : Nat) (src dst : Address) (amount : Nat) :
    Except VotesError (Address → List (Checkpoint Nat)) :=
  if src ≠ dst ∧ amount > 0 then do
    let checkpoints ← writeWeight checkpoints blockNumber src usub amount
    writeWeight checkpoints blockNumber dst uadd amount
  else return checkpoints

/-- Storage of the token with its checkpoints. -/
structure Voting where
  tlc : Tlc
  totalSupply : Nat
  checkpoints : Address → List (Checkpoint Nat)
  totalSupplyCheckpoints : List (Checkpoint Nat)

namespace Voting

/-- Storage before the initializer. -/
def fresh : Voting :=
  { tlc := .fresh
    totalSupply := 0
    checkpoints := fun _ => []
    totalSupplyCheckpoints := [] }

/-- `_transfer`, and `_afterTokenTransfer` behind it. -/
def transfer (voting : Voting) (blockNumber : Nat)
    (sender recipient : Address) (value : Nat) : Except VotesError Voting := do
  let tlc ← onToken (voting.tlc.transfer sender recipient value)
  let checkpoints ← moveVotingPower voting.checkpoints blockNumber
    (tlc.delegates sender) (tlc.delegates recipient) value
  return { voting with tlc, checkpoints }

/-- `_delegate` -/
def delegate (voting : Voting) (blockNumber : Nat)
    (delegator delegatee : Address) : Except VotesError Voting := do
  let currentDelegate := voting.tlc.delegates delegator
  let delegatorBalance := voting.tlc.balanceOf delegator
  let checkpoints ← moveVotingPower voting.checkpoints blockNumber
    currentDelegate delegatee delegatorBalance
  return { voting with
    tlc := voting.tlc.delegate delegator delegatee
    checkpoints }

/-- `_mint` -/
def mint (voting : Voting) (blockNumber : Nat) (account : Address)
    (value : Nat) : Except VotesError Voting := do
  let tlc ← onToken (voting.tlc.mint account value)
  let totalSupply ← uadd voting.totalSupply value
  let checkpoints ← moveVotingPower voting.checkpoints blockNumber
    (tlc.delegates .zero) (tlc.delegates account) value
  require (totalSupply < 2 ^ 224) .totalSupplyRisksOverflowingVotes
  let totalSupplyCheckpoints ←
    writeCheckpoint voting.totalSupplyCheckpoints blockNumber uadd value
  return { tlc, totalSupply, checkpoints, totalSupplyCheckpoints }

def initTLCV1 (blockNumber : Nat) (account : Address) :
    Except VotesError Voting := do
  require (account ≠ .zero) (.token .invalidZeroAddress)
  fresh.mint blockNumber account initialSupply

def getVotes (voting : Voting) (account : Address) : Nat :=
  let ckpts := voting.checkpoints account
  let pos := ckpts.length
  if pos = 0 then 0 else (unsafeAccess ckpts (pos - 1)).votes

def getPastVotes (voting : Voting) (blockNumber : Nat) (account : Address)
    (timepoint : Nat) : Except VotesError Nat := do
  let now ← clock blockNumber
  require (timepoint < now) .futureLookup
  return lookup (voting.checkpoints account) timepoint

def getPastTotalSupply (voting : Voting) (blockNumber timepoint : Nat) :
    Except VotesError Nat := do
  let now ← clock blockNumber
  require (timepoint < now) .futureLookup
  return lookup voting.totalSupplyCheckpoints timepoint

def setVestingSchedule (voting : Voting) (index : Nat)
    (schedule : VestingSchedule) : Voting :=
  { voting with tlc := voting.tlc.setVestingSchedule index schedule }

/-- `VestingSchedulesV2.push`, and the flag of the new schedule. -/
def pushVestingSchedule (voting : Voting) (schedule : VestingSchedule)
    (ignored : Bool) : Voting :=
  { voting with
    tlc := { voting.tlc with
      vestingSchedules := voting.tlc.vestingSchedules ++ [schedule]
      ignoreGlobalUnlockSchedule :=
        Function.update voting.tlc.ignoreGlobalUnlockSchedule
          voting.tlc.vestingSchedules.length ignored } }

variable (escrow : Nat → Address) (blockNumber now : Nat)

def createVestingSchedule (voting : Voting) (creator : Address)
    (schedule : NewSchedule) : Except VotesError (Voting × Nat) := do
  require (schedule.amount ≤ voting.tlc.balanceOf creator)
    (.token .unsufficientVestingScheduleCreatorBalance)
  onToken (validateScheduleParameters schedule)
  let start := if schedule.start = 0 then toUint64 now else schedule.start
  let endTime ← onToken (uadd64 start schedule.duration)
  let vestingSchedule : VestingSchedule :=
    { start
      endTime
      lockDuration := schedule.lockDuration
      cliffDuration := schedule.cliffDuration
      duration := schedule.duration
      periodDuration := schedule.periodDuration
      amount := schedule.amount
      creator
      beneficiary := schedule.beneficiary
      revocable := schedule.revocable
      releasedAmount := 0 }
  let index := voting.tlc.vestingSchedules.length
  let pushed := voting.pushVestingSchedule vestingSchedule
    schedule.ignoreGlobalUnlockSchedule
  let funded ←
    pushed.transfer blockNumber creator (escrow index) schedule.amount
  let delegatee :=
    if schedule.delegatee = .zero then schedule.beneficiary
    else schedule.delegatee
  let delegated ← funded.delegate blockNumber (escrow index) delegatee
  return (delegated, index)

/-- Return the tokens that will never be vested, if there are any. -/
def returnTokens (voting : Voting) (account creator : Address)
    (returnedAmount : Nat) : Except VotesError Voting :=
  if returnedAmount > 0 then
    voting.transfer blockNumber account creator returnedAmount
  else
    return voting

def revokeVestingSchedule (voting : Voting) (sender : Address)
    (index newEnd : Nat) : Except VotesError (Voting × Nat) := do
  let newEnd ← onToken (revokedEnd now newEnd)
  let schedule ← onToken (voting.tlc.getVestingSchedule index)
  require (schedule.revocable = true) (.token .vestingScheduleNotRevocable)
  require (schedule.start ≤ newEnd ∧ newEnd ≤ schedule.endTime)
    (.token .invalidRevokedVestingScheduleEnd)
  require (schedule.creator = sender) (.token (.unauthorized sender))
  let vestedAmountAtOldEnd ←
    onToken (schedule.computeVestedAmount schedule.endTime)
  let vestedAmountAtNewEnd ← onToken (schedule.computeVestedAmount newEnd)
  let returnedAmount ←
    onToken (usub vestedAmountAtOldEnd vestedAmountAtNewEnd)
  let voting ←
    voting.returnTokens blockNumber (escrow index) sender returnedAmount
  return (voting.setVestingSchedule index { schedule with endTime := newEnd },
    returnedAmount)

def releaseVestingSchedule (voting : Voting) (sender : Address)
    (index : Nat) : Except VotesError (Voting × Nat) := do
  let schedule ← onToken (voting.tlc.getVestingSchedule index)
  require (sender = schedule.beneficiary) (.token (.unauthorized sender))
  let releasable ←
    onToken (voting.tlc.computeReleasableAmount schedule true now index)
  require (releasable ≠ 0) (.token .zeroReleasableAmount)
  let voting ← voting.transfer blockNumber (escrow index) sender releasable
  let releasedAmount ← onToken (uadd schedule.releasedAmount releasable)
  return (voting.setVestingSchedule index { schedule with releasedAmount },
    releasable)

def delegateVestingEscrow (voting : Voting) (sender : Address) (index : Nat)
    (delegatee : Address) : Except VotesError Voting := do
  let schedule ← onToken (voting.tlc.getVestingSchedule index)
  require (sender = schedule.beneficiary) (.token (.unauthorized sender))
  voting.delegate blockNumber (escrow index) delegatee

end Voting

@[simp] theorem onToken_eq_ok {α : Type} {computation : Except Error α}
    {value : α} : onToken computation = .ok value ↔ computation = .ok value := by
  cases computation <;> simp [onToken, Except.mapError]

@[simp] theorem safeCast_eq_ok {bits value result : Nat} :
    safeCast bits value = .ok result ↔ value < 2 ^ bits ∧ value = result := by
  simp only [safeCast, bind_eq_ok, require_eq_ok, pure_eq_ok, exists_const]

variable {ckpts after : List (Checkpoint Nat)} {blockNumber delta : Nat}
  {op : Nat → Nat → Except VotesError Nat}

theorem writeCheckpoint_nil :
    writeCheckpoint [] blockNumber op delta = (do
      let newWeight ← op 0 delta
      let now ← clock blockNumber
      let fromBlock ← safeCast 32 now
      let votes ← safeCast 224 newWeight
      return [⟨fromBlock, votes⟩]) := by
  simp [writeCheckpoint]

theorem writeCheckpoint_concat {front : List (Checkpoint Nat)}
    {last : Checkpoint Nat} :
    writeCheckpoint (front ++ [last]) blockNumber op delta = (do
      let newWeight ← op last.votes delta
      let now ← clock blockNumber
      if last.fromBlock = now then do
        let votes ← safeCast 224 newWeight
        return front ++ [⟨last.fromBlock, votes⟩]
      else do
        let fromBlock ← safeCast 32 now
        let votes ← safeCast 224 newWeight
        return front ++ [last] ++ [⟨fromBlock, votes⟩]) := by
  simp [writeCheckpoint, unsafeAccess]

/-- A new weight is written where the history puts it. -/
theorem writeCheckpoint_ok
    (returned : writeCheckpoint ckpts blockNumber op delta = .ok after) :
    ∃ newWeight, op (latest ckpts) delta = .ok newWeight ∧
      after = write ckpts blockNumber newWeight := by
  induction ckpts using List.reverseRecOn with
  | nil =>
      simp only [writeCheckpoint_nil, clock, bind_eq_ok, safeCast_eq_ok,
        pure_eq_ok] at returned
      obtain ⟨newWeight, weighed, _, ⟨-, rfl⟩, _, ⟨-, rfl⟩, _, ⟨-, rfl⟩,
        rfl⟩ := returned
      exact ⟨newWeight, weighed, rfl⟩
  | append_singleton front last _ =>
      simp only [writeCheckpoint_concat, clock, bind_eq_ok, safeCast_eq_ok]
        at returned
      obtain ⟨newWeight, weighed, _, ⟨-, rfl⟩, written⟩ := returned
      refine ⟨newWeight, by rwa [latest_concat], ?_⟩
      rw [write_concat]
      split at written
      · rename_i same
        simp only [bind_eq_ok, safeCast_eq_ok, pure_eq_ok] at written
        obtain ⟨_, ⟨-, rfl⟩, rfl⟩ := written
        rw [if_pos same, same]
      · rename_i older
        simp only [bind_eq_ok, safeCast_eq_ok, pure_eq_ok] at written
        obtain ⟨_, ⟨-, rfl⟩, _, ⟨-, rfl⟩, rfl⟩ := written
        rw [if_neg older]

/-- In the first 2^32 blocks a weight of 224 bits can be written. -/
theorem writeCheckpoint_of {newWeight : Nat}
    (weighed : op (latest ckpts) delta = .ok newWeight)
    (small : newWeight < 2 ^ 224) (recent : blockNumber < 2 ^ 32) :
    writeCheckpoint ckpts blockNumber op delta =
      .ok (write ckpts blockNumber newWeight) := by
  have ticks : clock blockNumber = .ok blockNumber :=
    safeCast_eq_ok.mpr ⟨by omega, rfl⟩
  have dated : safeCast 32 blockNumber = .ok blockNumber :=
    safeCast_eq_ok.mpr ⟨recent, rfl⟩
  have fits : safeCast 224 newWeight = .ok newWeight :=
    safeCast_eq_ok.mpr ⟨small, rfl⟩
  induction ckpts using List.reverseRecOn with
  | nil =>
      change op 0 delta = .ok newWeight at weighed
      rw [writeCheckpoint_nil, weighed, ok_bind, ticks, ok_bind, dated,
        ok_bind, fits]
      rfl
  | append_singleton front last _ =>
      rw [latest_concat] at weighed
      rw [writeCheckpoint_concat, weighed, ok_bind, ticks, ok_bind, dated,
        ok_bind, fits, write_concat]
      split
      · rename_i same
        rw [same]
        rfl
      · rfl

variable {checkpoints moved : Address → List (Checkpoint Nat)}
  {src dst account : Address} {amount block timepoint : Nat}

/-- Checkpoints written in a block: they stay in order and the past stays as
it was. -/
structure Kept (block : Nat)
    (checkpoints moved : Address → List (Checkpoint Nat)) : Prop where
  ordered : ∀ account, Ordered (moved account) block
  past : ∀ account, ∀ timepoint < block,
    valueAt (moved account) timepoint =
      valueAt (checkpoints account) timepoint

theorem Kept.refl (ordered : ∀ account, Ordered (checkpoints account) block) :
    Kept block checkpoints checkpoints :=
  ⟨ordered, fun _ _ _ => rfl⟩

theorem Kept.trans {later : Address → List (Checkpoint Nat)}
    (first : Kept block checkpoints moved) (second : Kept block moved later) :
    Kept block checkpoints later :=
  ⟨second.ordered, fun account timepoint before =>
    (second.past account timepoint before).trans
      (first.past account timepoint before)⟩

/-- Writing the weight of one account. -/
theorem Kept.write (ordered : ∀ account, Ordered (checkpoints account) block)
    (written : Address) (newWeight : Nat) :
    Kept block checkpoints (Function.update checkpoints written
      (write (checkpoints written) block newWeight)) := by
  constructor
  · intro account
    by_cases same : account = written
    · rw [same, Function.update_self]
      exact (ordered written).write le_rfl newWeight
    · rw [Function.update_of_ne same]
      exact ordered account
  · intro account timepoint before
    by_cases same : account = written
    · rw [same, Function.update_self]
      exact (ordered written).valueAt_write le_rfl before newWeight
    · rw [Function.update_of_ne same]

theorem writeWeight_ok
    (ordered : ∀ account, Ordered (checkpoints account) block)
    (returned : writeWeight checkpoints block account op amount = .ok moved) :
    Kept block checkpoints moved ∧
      (∀ other, other ≠ account → moved other = checkpoints other) ∧
      moved .zero = checkpoints .zero ∧
      (account ≠ .zero → op (latest (checkpoints account)) amount =
        .ok (latest (moved account))) := by
  unfold writeWeight at returned
  split at returned
  · rename_i delegate
    simp only [bind_eq_ok, pure_eq_ok] at returned
    obtain ⟨ckpts, written, rfl⟩ := returned
    obtain ⟨newWeight, weighed, rfl⟩ := writeCheckpoint_ok written
    refine ⟨.write ordered account _,
      fun other different => Function.update_of_ne different _ _,
      Function.update_of_ne (Ne.symm delegate) _ _, fun _ => ?_⟩
    rw [Function.update_self,
      (ordered account).latest_write le_rfl newWeight, weighed]
  · rename_i noDelegate
    obtain rfl := pure_eq_ok.mp returned
    exact ⟨.refl ordered, fun _ _ => rfl, rfl,
      fun delegate => absurd delegate noDelegate⟩

/-- What a move does: it takes the amount from the one side and adds it to the
other, each only where there is a delegate. -/
structure Moves (block : Nat) (src dst : Address) (amount : Nat)
    (checkpoints moved : Address → List (Checkpoint Nat)) : Prop
    extends Kept block checkpoints moved where
  silent : moved .zero = checkpoints .zero
  weights : ∀ account, account ≠ .zero →
    latest (moved account) + (if src = account then amount else 0) =
      latest (checkpoints account) + if dst = account then amount else 0

theorem moveVotingPower_ok
    (ordered : ∀ account, Ordered (checkpoints account) block)
    (returned : moveVotingPower checkpoints block src dst amount = .ok moved) :
    Moves block src dst amount checkpoints moved := by
  unfold moveVotingPower at returned
  split at returned
  · rename_i moving
    obtain ⟨taken, takes, gives⟩ := bind_eq_ok.mp returned
    obtain ⟨takenKept, takenRest, takenSilent, less⟩ :=
      writeWeight_ok ordered takes
    obtain ⟨givenKept, givenRest, givenSilent, more⟩ :=
      writeWeight_ok takenKept.ordered gives
    refine ⟨takenKept.trans givenKept, givenSilent.trans takenSilent,
      fun account delegate => ?_⟩
    by_cases source : src = account
    · subst source
      obtain ⟨enough, left⟩ := usub_eq_ok.mp (less delegate)
      rw [if_pos rfl, if_neg (Ne.symm moving.1), givenRest src moving.1]
      omega
    · by_cases target : dst = account
      · subst target
        have sum := (uadd_eq_ok.mp (more delegate)).2
        rw [takenRest dst (Ne.symm source)] at sum
        rw [if_neg source, if_pos rfl]
        omega
      · rw [givenRest account (Ne.symm target),
          takenRest account (Ne.symm source), if_neg source, if_neg target]
  · rename_i nothing
    obtain rfl := pure_eq_ok.mp returned
    refine ⟨.refl ordered, rfl, fun account _ => ?_⟩
    by_cases same : src = dst
    · rw [same]
    · have none : amount = 0 := by
        by_contra some
        exact nothing ⟨same, Nat.pos_of_ne_zero some⟩
      simp [none]

theorem writeWeight_returns (recent : block < 2 ^ 32)
    (weighed : account ≠ .zero → ∃ newWeight,
      op (latest (checkpoints account)) amount = .ok newWeight ∧
        newWeight < 2 ^ 224) :
    ∃ moved, writeWeight checkpoints block account op amount = .ok moved := by
  unfold writeWeight
  split
  · rename_i delegate
    obtain ⟨newWeight, weight, small⟩ := weighed delegate
    rw [writeCheckpoint_of weight small recent]
    exact ⟨_, rfl⟩
  · exact ⟨_, rfl⟩

/-- A move of votes that are there, to where they fit, returns. -/
theorem moveVotingPower_returns
    (ordered : ∀ account, Ordered (checkpoints account) block)
    (recent : block < 2 ^ 32)
    (held : src ≠ .zero → src ≠ dst → amount ≤ latest (checkpoints src) ∧
      latest (checkpoints src) < 2 ^ 224)
    (fits : dst ≠ .zero → src ≠ dst →
      latest (checkpoints dst) + amount < 2 ^ 224) :
    ∃ moved, moveVotingPower checkpoints block src dst amount = .ok moved := by
  unfold moveVotingPower
  split
  · rename_i moving
    have takes : ∃ taken,
        writeWeight checkpoints block src usub amount = .ok taken := by
      refine writeWeight_returns recent fun delegate => ?_
      obtain ⟨enough, small⟩ := held delegate moving.1
      exact ⟨_, usub_of_le enough, (Nat.sub_le _ _).trans_lt small⟩
    obtain ⟨taken, takes⟩ := takes
    obtain ⟨-, rest, -, -⟩ := writeWeight_ok ordered takes
    rw [takes, ok_bind]
    refine writeWeight_returns recent fun delegate => ?_
    have small := fits delegate moving.1
    rw [rest dst (Ne.symm moving.1)]
    exact ⟨_, uadd_of_lt (by unfold wordLimit; omega), small⟩
  · exact ⟨_, rfl⟩

end Tlc

end RiverProtocol
