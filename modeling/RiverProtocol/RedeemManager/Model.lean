import RiverProtocol.Common

/-!
# The redeem manager contract

The queue of redeem requests and the stack of withdrawal events are lists in
array order.  Ids on the interface are 32-bit words, so the array lengths are
cast where the contract casts them.  Positions in the stack are natural
numbers; the source keeps them in 64-bit integers.  `logs` is the sequence of
emitted events and `transfers` the sequence of value-carrying calls the
contract has made.

River is only reached through the calls of `RiverCalls`, whose effect on the
rest of the world is a parameter.  A recipient accepts the ether of a claim or
reverts; that its code may call the contracts in between is modelled on top of
this loop, in `System/Reentrancy` and `System/Recipients`.
-/

namespace RiverProtocol

open Checked Outcome

/-- `RedeemQueueV2.RedeemRequest` -/
structure RedeemRequest where
  amount : Nat
  maxRedeemableEth : Nat
  recipient : Address
  height : Nat
  initiator : Address
  deriving DecidableEq, Repr

/-- `WithdrawalStack.WithdrawalEvent` -/
structure WithdrawalEvent where
  amount : Nat
  withdrawnEth : Nat
  height : Nat
  deriving DecidableEq, Repr

def RedeemRequest.position (redeemRequest : RedeemRequest) : Nat × Nat :=
  (redeemRequest.height, redeemRequest.amount)

def WithdrawalEvent.position (withdrawalEvent : WithdrawalEvent) : Nat × Nat :=
  (withdrawalEvent.height, withdrawalEvent.amount)

/-- The events the redeem manager emits. -/
inductive RedeemLog where
  | requestedRedeem (recipient : Address)
      (height amount maxRedeemableEth id : Nat)
  | reportedWithdrawal (height amount ethAmount id : Nat)
  | satisfiedRedeemRequest (redeemRequestId withdrawalEventId
      lsEthAmountSatisfied ethAmountSatisfied lsEthAmountRemaining
      ethAmountExceeding : Nat)
  | claimedRedeemRequest (redeemRequestId : Nat) (recipient : Address)
      (ethAmount lsEthAmount remainingLsEthAmount : Nat)
  | setRedeemDemand (oldRedeemDemand newRedeemDemand : Nat)
  deriving DecidableEq, Repr

/-- Ether leaving the redeem manager. -/
inductive EthTransfer where
  | claimPayment (recipient : Address) (amount : Nat)
  | exceedingPull (amount : Nat)
  deriving DecidableEq, Repr

/-- The claim statuses `CLAIM_FULLY_CLAIMED`, `CLAIM_PARTIALLY_CLAIMED` and
`CLAIM_SKIPPED`. -/
inductive ClaimStatus where
  | fullyClaimed
  | partiallyClaimed
  | skipped
  deriving DecidableEq, Repr

structure RedeemManager where
  redeemQueue : List RedeemRequest
  withdrawalStack : List WithdrawalEvent
  bufferedExceedingEth : Nat
  redeemDemand : Nat
  balance : Nat
  logs : List RedeemLog
  transfers : List EthTransfer
  deriving DecidableEq, Repr

/-- What the redeem manager calls outside itself, over a world `E`. -/
structure RiverCalls (E : Type) where
  /-- `river.transferFrom(msg.sender, address(this), amount)` -/
  transferFrom : E → (amount : Nat) → Except Error (Bool × E)
  underlyingBalanceFromShares : E → (shares : Nat) → Except Error Nat
  /-- `allowlist.isDenied` of the allowlist River points to -/
  isDenied : E → Address → Bool
  /-- `recipient.call{value: amount}("")` of a caller that has the ether -/
  call : E → (recipient : Address) → (amount : Nat) → Option E

namespace RedeemManager

/-- Storage after `initializeRedeemManagerV1`. -/
def fresh : RedeemManager :=
  { redeemQueue := []
    withdrawalStack := []
    bufferedExceedingEth := 0
    redeemDemand := 0
    balance := 0
    logs := []
    transfers := [] }

def emit (manager : RedeemManager) (log : RedeemLog) : RedeemManager :=
  { manager with logs := manager.logs ++ [log] }

/-- `_setRedeemDemand` -/
def setRedeemDemand (manager : RedeemManager) (newValue : Nat) :
    RedeemManager :=
  { manager.emit (.setRedeemDemand manager.redeemDemand newValue) with
    redeemDemand := newValue }

/-- `_isMatch` -/
def isMatch (redeemRequest : RedeemRequest)
    (withdrawalEvent : WithdrawalEvent) : Except Error Bool := do
  let endPosition ← uadd withdrawalEvent.height withdrawalEvent.amount
  return decide (redeemRequest.height < endPosition ∧
    redeemRequest.height ≥ withdrawalEvent.height)

/-- `RESOLVE_UNSATISFIED` -/
def resolveUnsatisfied : Int := -1

/-- `RESOLVE_OUT_OF_BOUNDS` -/
def resolveOutOfBounds : Int := -2

/-- `RESOLVE_FULLY_CLAIMED` -/
def resolveFullyClaimed : Int := -3

/-- The loop of `_performDichotomicResolution`, which takes one unit of gas
for each round. -/
def searchEvents (redeemRequest : RedeemRequest)
    (withdrawalEvents : List WithdrawalEvent) :
    (gas min max : Nat) → Except Error Nat
  | 0, min, max => if min ≠ max then .error .outOfGas else return min
  | gas + 1, min, max =>
    if min ≠ max then do
      let mid := (min + max) / 2
      let midWithdrawalEvent ← fetch withdrawalEvents mid (.panic .outOfBounds)
      let matching ← isMatch redeemRequest midWithdrawalEvent
      if matching then
        return mid
      else if redeemRequest.height < midWithdrawalEvent.height then
        searchEvents redeemRequest withdrawalEvents gas min mid
      else
        searchEvents redeemRequest withdrawalEvents gas mid max
    else
      return min

/-- `_performDichotomicResolution` -/
def performDichotomicResolution (manager : RedeemManager) (gas : Nat)
    (redeemRequest : RedeemRequest) : Except Error Int := do
  let withdrawalEvents := manager.withdrawalStack
  let max ← usub withdrawalEvents.length 1
  let maxWithdrawalEvent ← fetch withdrawalEvents max (.panic .outOfBounds)
  let matching ← isMatch redeemRequest maxWithdrawalEvent
  if matching then
    return max
  else do
    let minWithdrawalEvent ← fetch withdrawalEvents 0 (.panic .outOfBounds)
    let matching ← isMatch redeemRequest minWithdrawalEvent
    if matching then
      return 0
    else do
      let position ← searchEvents redeemRequest withdrawalEvents gas 0 max
      return position

/-- `_resolveRedeemRequestId` -/
def resolveRedeemRequestId (manager : RedeemManager) (gas : Nat)
    (redeemRequestId : Nat) (lastWithdrawalEvent : WithdrawalEvent) :
    Except Error Int :=
  match manager.redeemQueue[redeemRequestId]? with
  | none => return resolveOutOfBounds
  | some redeemRequest =>
    if redeemRequest.amount = 0 then
      return resolveFullyClaimed
    else if manager.withdrawalStack.length = 0 then
      return resolveUnsatisfied
    else do
      let lastEnd ← uadd lastWithdrawalEvent.height lastWithdrawalEvent.amount
      if lastEnd ≤ redeemRequest.height then
        return resolveUnsatisfied
      else
        manager.performDichotomicResolution gas redeemRequest

/-- The last event, or the zero event of an empty stack. -/
def lastWithdrawalEvent (manager : RedeemManager) : WithdrawalEvent :=
  manager.withdrawalStack.getLast?.getD
    { amount := 0, withdrawnEth := 0, height := 0 }

/-- `resolveRedeemRequests` -/
def resolveRedeemRequests (manager : RedeemManager) (gas : Nat)
    (redeemRequestIds : List Nat) : Except Error (List Int) :=
  redeemRequestIds.mapM fun redeemRequestId =>
    manager.resolveRedeemRequestId gas redeemRequestId
      manager.lastWithdrawalEvent

/-- The height of the entry pushed with this id: the end of the previous one,
or 0 for the id 0. -/
def nextHeight (positions : List (Nat × Nat)) (id : Nat) :
    Except Error Nat :=
  if id ≠ 0 then do
    let (height, amount) ← fetch positions (id - 1) (.panic .outOfBounds)
    uadd height amount
  else pure 0

/-- `_requestRedeem` -/
def requestRedeem {E : Type} (river : RiverCalls E) (world : E)
    (manager : RedeemManager) (lsETHAmount : Nat)
    (recipient initiator : Address) :
    Except Error (RedeemManager × E × Nat) := do
  notZeroAddress recipient
  require (lsETHAmount ≠ 0) .invalidZeroAmount
  let (transferred, world) ← river.transferFrom world lsETHAmount
  require (transferred = true) .transferError
  let redeemRequestId := toUint32 manager.redeemQueue.length
  let height ← nextHeight (manager.redeemQueue.map RedeemRequest.position)
    redeemRequestId
  let maxRedeemableEth ← river.underlyingBalanceFromShares world lsETHAmount
  let redeemDemand ← uadd manager.redeemDemand lsETHAmount
  let pushed : RedeemManager := { manager with
    redeemQueue := manager.redeemQueue ++
      [{ height := height, amount := lsETHAmount, recipient := recipient,
         initiator := initiator, maxRedeemableEth := maxRedeemableEth }] }
  let manager := (pushed.setRedeemDemand redeemDemand).emit
    (.requestedRedeem recipient height lsETHAmount maxRedeemableEth
      redeemRequestId)
  return (manager, world, redeemRequestId)

/-- `reportWithdraw`, called by River with `msgValue` wei attached. -/
def reportWithdraw (manager : RedeemManager)
    (lsETHWithdrawable msgValue : Nat) : Except Error RedeemManager := do
  let balance ← uadd manager.balance msgValue
  require (lsETHWithdrawable ≤ manager.redeemDemand)
    (.withdrawalExceedsRedeemDemand lsETHWithdrawable manager.redeemDemand)
  let withdrawalEventId := toUint32 manager.withdrawalStack.length
  let height ← nextHeight
    (manager.withdrawalStack.map WithdrawalEvent.position) withdrawalEventId
  let pushed : RedeemManager := { manager with
    balance := balance
    withdrawalStack := manager.withdrawalStack ++
      [{ height := height, amount := lsETHWithdrawable,
         withdrawnEth := msgValue }] }
  -- the subtraction is unchecked in the source, after the comparison above
  return (pushed.setRedeemDemand
    (manager.redeemDemand - lsETHWithdrawable)).emit
      (.reportedWithdrawal height lsETHWithdrawable msgValue
        withdrawalEventId)

/-- `pullExceedingEth`, with the amount River receives through
`sendRedeemManagerExceedingFunds`. -/
def pullExceedingEth (manager : RedeemManager) (max : Nat) :
    Except Error (RedeemManager × Nat) := do
  let amountToSend := LibUint256.min manager.bufferedExceedingEth max
  if amountToSend > 0 then do
    let buffered ← usub manager.bufferedExceedingEth amountToSend
    require (amountToSend ≤ manager.balance)
      (.callFailed .insufficientBalance)
    return ({ manager with
      bufferedExceedingEth := buffered
      balance := manager.balance - amountToSend
      transfers := manager.transfers ++ [.exceedingPull amountToSend] },
      amountToSend)
  else
    return (manager, 0)

/-- `ClaimRedeemRequestParameters`, less the recursion depth. -/
structure ClaimParameters where
  redeemRequest : RedeemRequest
  withdrawalEvent : WithdrawalEvent
  redeemRequestId : Nat
  withdrawalEventId : Nat
  withdrawalEventCount : Nat
  lsETHAmount : Nat
  ethAmount : Nat

/-- `_saveRedeemRequest` -/
def saveRedeemRequest (manager : RedeemManager) (params : ClaimParameters) :
    Except Error RedeemManager := do
  let stored ← fetch manager.redeemQueue params.redeemRequestId
    (.panic .outOfBounds)
  return { manager with
    redeemQueue := manager.redeemQueue.set params.redeemRequestId
      { stored with
        height := params.redeemRequest.height
        amount := params.redeemRequest.amount
        maxRedeemableEth := params.redeemRequest.maxRedeemableEth } }

/-- The ether of a matched amount: what the request is paid, what goes to the
exceeding buffer, and the buffer afterwards. -/
def capPayment (buffered ethAmount maxRedeemableEthAmount : Nat) :
    Except Error (Nat × Nat × Nat) :=
  if maxRedeemableEthAmount < ethAmount then do
    let exceedingEthAmount := ethAmount - maxRedeemableEthAmount
    let buffered ← uadd buffered exceedingEthAmount
    return (maxRedeemableEthAmount, exceedingEthAmount, buffered)
  else
    return (ethAmount, 0, buffered)

/-- The body of `_claimRedeemRequest` before its recursive call: match the
request against one withdrawal event. -/
def matchWithdrawalEvent (manager : RedeemManager)
    (params : ClaimParameters) :
    Except Error (RedeemManager × ClaimParameters) := do
  let request := params.redeemRequest
  let event := params.withdrawalEvent
  let withdrawalEventEndPosition ← uadd event.height event.amount
  let remaining ← usub withdrawalEventEndPosition request.height
  let matchingAmount := LibUint256.min request.amount remaining
  let ethProduct ← umul matchingAmount event.withdrawnEth
  let matchedEthAmount ← udiv ethProduct event.amount
  let maxProduct ← umul matchingAmount request.maxRedeemableEth
  let maxRedeemableEthAmount ← udiv maxProduct request.amount
  let (ethAmount, exceedingEthAmount, buffered) ←
    capPayment manager.bufferedExceedingEth matchedEthAmount
      maxRedeemableEthAmount
  let height ← uadd request.height matchingAmount
  let amount ← usub request.amount matchingAmount
  let maxRedeemableEth ← usub request.maxRedeemableEth ethAmount
  let lsETHTotal ← uadd params.lsETHAmount matchingAmount
  let ethTotal ← uadd params.ethAmount ethAmount
  let manager := { manager with bufferedExceedingEth := buffered }
  return (manager.emit (.satisfiedRedeemRequest params.redeemRequestId
      params.withdrawalEventId matchingAmount ethAmount amount
      exceedingEthAmount),
    { params with
      redeemRequest := { request with
        height := height
        amount := amount
        maxRedeemableEth := maxRedeemableEth }
      lsETHAmount := lsETHTotal
      ethAmount := ethTotal })

/-- `_claimRedeemRequest`.  The sum `withdrawalEventId + 1` cannot leave 32
bits: the id is below a count that is itself cast to 32 bits. -/
def claimRedeemRequest : (depth : Nat) → RedeemManager → ClaimParameters →
    Except Error (RedeemManager × ClaimParameters)
  | 0, manager, params => do
    let (manager, params) ← matchWithdrawalEvent manager params
    let manager ← saveRedeemRequest manager params
    return (manager, params)
  | depth + 1, manager, params => do
    let (manager, params) ← matchWithdrawalEvent manager params
    if params.redeemRequest.amount > 0 ∧
        params.withdrawalEventId + 1 < params.withdrawalEventCount then do
      let withdrawalEvent ← fetch manager.withdrawalStack
        (params.withdrawalEventId + 1) (.panic .outOfBounds)
      claimRedeemRequest depth manager { params with
        withdrawalEventId := params.withdrawalEventId + 1
        withdrawalEvent := withdrawalEvent }
    else do
      let manager ← saveRedeemRequest manager params
      return (manager, params)

/-- `recipient.call{value: ethAmount}("")` at the end of a claim. -/
def payRecipient {E : Type} (river : RiverCalls E) (world : E)
    (manager : RedeemManager) (recipient : Address) (ethAmount : Nat) :
    Except Error (RedeemManager × E) := do
  require (ethAmount ≤ manager.balance)
    (.claimRedeemFailed recipient .insufficientBalance)
  match river.call world recipient ethAmount with
  | none => .error (.claimRedeemFailed recipient .reverted)
  | some world =>
    return ({ manager with
      balance := manager.balance - ethAmount
      transfers := manager.transfers ++
        [.claimPayment recipient ethAmount] }, world)

/-- What one call of `_claimRedeemRequests` fixes before its loop. -/
structure ClaimCall where
  skipAlreadyClaimed : Bool
  depth : Nat
  withdrawalEventCount : Nat
  redeemRequestCount : Nat

/-- A request that is not skipped: match it, save it and pay it. -/
def claimLoadedRequest {E : Type} (river : RiverCalls E)
    (call : ClaimCall) (world : E) (manager : RedeemManager)
    (redeemRequest : RedeemRequest)
    (redeemRequestId withdrawalEventId : Nat) :
    Except Error (RedeemManager × E × ClaimStatus) := do
  let withdrawalEvent ← fetch manager.withdrawalStack withdrawalEventId
    (.panic .outOfBounds)
  let matching ← isMatch redeemRequest withdrawalEvent
  require (matching = true)
    (.doesNotMatch redeemRequestId withdrawalEventId)
  let (manager, params) ← claimRedeemRequest call.depth manager
    { redeemRequest := redeemRequest
      withdrawalEvent := withdrawalEvent
      redeemRequestId := redeemRequestId
      withdrawalEventId := withdrawalEventId
      withdrawalEventCount := call.withdrawalEventCount
      lsETHAmount := 0
      ethAmount := 0 }
  let (manager, world) ← payRecipient river world manager
    params.redeemRequest.recipient params.ethAmount
  let manager := manager.emit (.claimedRedeemRequest redeemRequestId
    params.redeemRequest.recipient params.ethAmount params.lsETHAmount
    params.redeemRequest.amount)
  return (manager, world,
    if params.redeemRequest.amount = 0 then .fullyClaimed
    else .partiallyClaimed)

/-- One iteration of the loop of `_claimRedeemRequests`. -/
def claimOne {E : Type} (river : RiverCalls E) (call : ClaimCall)
    (world : E) (manager : RedeemManager)
    (redeemRequestId withdrawalEventId : Nat) :
    Except Error (RedeemManager × E × ClaimStatus) := do
  require (redeemRequestId < call.redeemRequestCount)
    (.redeemRequestOutOfBounds redeemRequestId)
  require (withdrawalEventId < call.withdrawalEventCount)
    (.withdrawalEventOutOfBounds withdrawalEventId)
  let redeemRequest ← fetch manager.redeemQueue redeemRequestId
    (.panic .outOfBounds)
  require (river.isDenied world redeemRequest.recipient = false)
    .claimRecipientIsDenied
  require (river.isDenied world redeemRequest.initiator = false)
    .claimInitiatorIsDenied
  if redeemRequest.amount = 0 then do
    require (call.skipAlreadyClaimed = true)
      (.redeemRequestAlreadyClaimed redeemRequestId)
    return (manager, world, .skipped)
  else
    claimLoadedRequest river call world manager redeemRequest
      redeemRequestId withdrawalEventId

/-- The loop of `_claimRedeemRequests` over its two id arrays. -/
def claimAll {E : Type} (river : RiverCalls E) (call : ClaimCall) :
    List (Nat × Nat) → E → RedeemManager →
      Except Error (RedeemManager × E × List ClaimStatus)
  | [], world, manager => return (manager, world, [])
  | (redeemRequestId, withdrawalEventId) :: rest, world, manager => do
    let (manager, world, status) ← claimOne river call world manager
      redeemRequestId withdrawalEventId
    let (manager, world, statuses) ← claimAll river call rest world manager
    return (manager, world, status :: statuses)

/-- `_claimRedeemRequests`, and `claimRedeemRequests` with four arguments. -/
def claimRedeemRequests {E : Type} (river : RiverCalls E) (world : E)
    (manager : RedeemManager) (redeemRequestIds withdrawalEventIds : List Nat)
    (skipAlreadyClaimed : Bool) (depth : Nat) :
    Except Error (RedeemManager × E × List ClaimStatus) := do
  require (redeemRequestIds.length = withdrawalEventIds.length)
    .incompatibleArrayLengths
  claimAll river
    { skipAlreadyClaimed := skipAlreadyClaimed
      depth := depth
      withdrawalEventCount := toUint32 manager.withdrawalStack.length
      redeemRequestCount := toUint32 manager.redeemQueue.length }
    (redeemRequestIds.zip withdrawalEventIds) world manager

end RedeemManager

end RiverProtocol
