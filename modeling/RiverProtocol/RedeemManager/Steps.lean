import Mathlib.Logic.Relation
import RiverProtocol.Lib.Lists
import RiverProtocol.Lib.Segments
import RiverProtocol.RedeemManager.Model

/-!
# What each operation of the redeem manager does

One lemma for each operation describes the state a returning call leaves, so
that the invariants never unfold the contract again.  A claim is a run of
*pieces*: each piece matches the request against one withdrawal event.
-/

namespace RiverProtocol

open Checked Outcome Segments

def RedeemRequest.endPosition (redeemRequest : RedeemRequest) : Nat :=
  redeemRequest.height + redeemRequest.amount

def WithdrawalEvent.endPosition (withdrawalEvent : WithdrawalEvent) : Nat :=
  withdrawalEvent.height + withdrawalEvent.amount

namespace RedeemRequest

/-- The LsETH of the request that the event satisfies. -/
def matched (redeemRequest : RedeemRequest)
    (withdrawalEvent : WithdrawalEvent) : Nat :=
  min redeemRequest.amount
    (withdrawalEvent.endPosition - redeemRequest.height)

/-- The share of the event's ether that belongs to the matched LsETH. -/
def matchedEth (redeemRequest : RedeemRequest)
    (withdrawalEvent : WithdrawalEvent) : Nat :=
  prorated withdrawalEvent.withdrawnEth withdrawalEvent.amount
    (redeemRequest.matched withdrawalEvent)

/-- The part of the remaining maximum that belongs to the matched LsETH. -/
def cappedEth (redeemRequest : RedeemRequest)
    (withdrawalEvent : WithdrawalEvent) : Nat :=
  prorated redeemRequest.maxRedeemableEth redeemRequest.amount
    (redeemRequest.matched withdrawalEvent)

def paidEth (redeemRequest : RedeemRequest)
    (withdrawalEvent : WithdrawalEvent) : Nat :=
  min (redeemRequest.matchedEth withdrawalEvent)
    (redeemRequest.cappedEth withdrawalEvent)

def exceedingEth (redeemRequest : RedeemRequest)
    (withdrawalEvent : WithdrawalEvent) : Nat :=
  redeemRequest.matchedEth withdrawalEvent -
    redeemRequest.cappedEth withdrawalEvent

/-- The request after the piece. -/
def afterMatch (redeemRequest : RedeemRequest)
    (withdrawalEvent : WithdrawalEvent) : RedeemRequest :=
  { redeemRequest with
    height := redeemRequest.height + redeemRequest.matched withdrawalEvent
    amount := redeemRequest.amount - redeemRequest.matched withdrawalEvent
    maxRedeemableEth := redeemRequest.maxRedeemableEth -
      redeemRequest.paidEth withdrawalEvent }

variable (redeemRequest : RedeemRequest) (withdrawalEvent : WithdrawalEvent)

theorem matched_le : redeemRequest.matched withdrawalEvent ≤
    redeemRequest.amount :=
  Nat.min_le_left _ _

theorem paidEth_add_exceedingEth :
    redeemRequest.paidEth withdrawalEvent +
        redeemRequest.exceedingEth withdrawalEvent =
      redeemRequest.matchedEth withdrawalEvent := by
  unfold paidEth exceedingEth
  omega

theorem paidEth_le : redeemRequest.paidEth withdrawalEvent ≤
    redeemRequest.maxRedeemableEth :=
  (Nat.min_le_right _ _).trans
    (prorated_le_value _ (redeemRequest.matched_le withdrawalEvent))

theorem afterMatch_endPosition :
    (redeemRequest.afterMatch withdrawalEvent).endPosition =
      redeemRequest.endPosition := by
  have bound := redeemRequest.matched_le withdrawalEvent
  simp only [afterMatch, endPosition]
  omega

end RedeemRequest

namespace RedeemManager

/-- The event that reports one piece. -/
def pieceLog (params : ClaimParameters) : RedeemLog :=
  .satisfiedRedeemRequest params.redeemRequestId params.withdrawalEventId
    (params.redeemRequest.matched params.withdrawalEvent)
    (params.redeemRequest.paidEth params.withdrawalEvent)
    (params.redeemRequest.afterMatch params.withdrawalEvent).amount
    (params.redeemRequest.exceedingEth params.withdrawalEvent)

/-- The manager after one piece, the request itself not yet saved. -/
def afterPiece (manager : RedeemManager) (params : ClaimParameters) :
    RedeemManager :=
  { manager with
    bufferedExceedingEth := manager.bufferedExceedingEth +
      params.redeemRequest.exceedingEth params.withdrawalEvent
    logs := manager.logs ++ [pieceLog params] }

def ClaimParameters.afterPiece (params : ClaimParameters) : ClaimParameters :=
  { params with
    redeemRequest := params.redeemRequest.afterMatch params.withdrawalEvent
    lsETHAmount := params.lsETHAmount +
      params.redeemRequest.matched params.withdrawalEvent
    ethAmount := params.ethAmount +
      params.redeemRequest.paidEth params.withdrawalEvent }

theorem capPayment_ok {buffered ethAmount maximum paid exceeding after : Nat}
    (returned : capPayment buffered ethAmount maximum =
      .ok (paid, exceeding, after)) :
    paid = min ethAmount maximum ∧ exceeding = ethAmount - maximum ∧
      after = buffered + (ethAmount - maximum) := by
  unfold capPayment at returned
  split at returned
  · simp only [bind_eq_ok, uadd_eq_ok, pure_eq_ok, Prod.mk.injEq]
      at returned
    obtain ⟨sum, ⟨-, rfl⟩, rfl, rfl, rfl⟩ := returned
    omega
  · simp only [pure_eq_ok, Prod.mk.injEq] at returned
    omega

theorem matchWithdrawalEvent_ok
    {manager after : RedeemManager} {params next : ClaimParameters}
    (returned : matchWithdrawalEvent manager params = .ok (after, next)) :
    params.redeemRequest.height ≤ params.withdrawalEvent.endPosition ∧
      params.withdrawalEvent.amount ≠ 0 ∧
      params.redeemRequest.amount ≠ 0 ∧
      after = manager.afterPiece params ∧ next = params.afterPiece := by
  unfold matchWithdrawalEvent at returned
  simp only [bind_eq_ok, uadd_eq_ok, usub_eq_ok, umul_eq_ok, udiv_eq_ok,
    pure_eq_ok, Prod.mk.injEq, Prod.exists] at returned
  obtain ⟨endPosition, ⟨-, rfl⟩, remaining, ⟨reached, rfl⟩, ethProduct,
    ⟨-, rfl⟩, matchedEth, ⟨eventNonzero, rfl⟩, maxProduct, ⟨-, rfl⟩, maximum,
    ⟨requestNonzero, rfl⟩, paid, exceeding, buffered, capped, height, ⟨-, rfl⟩,
    amount, ⟨-, rfl⟩, maxRedeemableEth, ⟨-, rfl⟩, lsETHTotal, ⟨-, rfl⟩,
    ethTotal, ⟨-, rfl⟩, rfl, rfl⟩ := returned
  obtain ⟨rfl, rfl, rfl⟩ := capPayment_ok capped
  rw [LibUint256.min_eq]
  exact ⟨reached, eventNonzero, requestNonzero, rfl, rfl⟩

/-- The stored request the claim parameters were loaded from, with the three
fields a claim changes. -/
def savedRequest (stored : RedeemRequest) (params : ClaimParameters) :
    RedeemRequest :=
  { stored with
    height := params.redeemRequest.height
    amount := params.redeemRequest.amount
    maxRedeemableEth := params.redeemRequest.maxRedeemableEth }

theorem saveRedeemRequest_ok {manager after : RedeemManager}
    {params : ClaimParameters}
    (returned : saveRedeemRequest manager params = .ok after) :
    ∃ stored, manager.redeemQueue[params.redeemRequestId]? = some stored ∧
      after = { manager with
        redeemQueue := manager.redeemQueue.set params.redeemRequestId
          (savedRequest stored params) } := by
  simp only [saveRedeemRequest, bind_eq_ok, fetch_eq_ok, pure_eq_ok]
    at returned
  obtain ⟨stored, found, rfl⟩ := returned
  exact ⟨stored, found, rfl⟩

/-- The parameters of the recursive call on the next event. -/
def ClaimParameters.withNextEvent (params : ClaimParameters)
    (withdrawalEvent : WithdrawalEvent) : ClaimParameters :=
  { params with
    withdrawalEventId := params.withdrawalEventId + 1
    withdrawalEvent := withdrawalEvent }

/-- Induction over the pieces of a claim: an invariant of the manager and the
parameters that every piece and every advance to the next event preserves
holds when the request is saved. -/
theorem claimRedeemRequest_induction
    {motive : RedeemManager → ClaimParameters → Prop}
    (piece : ∀ manager params, motive manager params →
      params.redeemRequest.height ≤ params.withdrawalEvent.endPosition →
      params.withdrawalEvent.amount ≠ 0 → params.redeemRequest.amount ≠ 0 →
      motive (manager.afterPiece params) params.afterPiece)
    (advance : ∀ manager params withdrawalEvent, motive manager params →
      params.redeemRequest.height = params.withdrawalEvent.endPosition →
      params.withdrawalEventId + 1 < params.withdrawalEventCount →
      manager.withdrawalStack[params.withdrawalEventId + 1]? =
        some withdrawalEvent →
      motive manager (params.withNextEvent withdrawalEvent))
    {depth : Nat} {manager after : RedeemManager}
    {params final : ClaimParameters} (holds : motive manager params)
    (returned : claimRedeemRequest depth manager params =
      .ok (after, final)) :
    ∃ matchedManager, motive matchedManager final ∧
      saveRedeemRequest matchedManager final = .ok after := by
  induction depth generalizing manager params with
  | zero =>
      simp only [claimRedeemRequest, bind_eq_ok, pure_eq_ok, Prod.mk.injEq,
        Prod.exists] at returned
      obtain ⟨next, nextParams, matching, saved, saving, rfl, rfl⟩ := returned
      obtain ⟨reached, eventNonzero, requestNonzero, rfl, rfl⟩ :=
        matchWithdrawalEvent_ok matching
      exact ⟨_, piece _ _ holds reached eventNonzero requestNonzero, saving⟩
  | succ depth induction =>
      simp only [claimRedeemRequest, bind_eq_ok, Prod.exists] at returned
      obtain ⟨next, nextParams, matching, returned⟩ := returned
      obtain ⟨reached, eventNonzero, requestNonzero, rfl, rfl⟩ :=
        matchWithdrawalEvent_ok matching
      have matched := piece _ _ holds reached eventNonzero requestNonzero
      split at returned
      · rename_i continues
        simp only [bind_eq_ok, fetch_eq_ok] at returned
        obtain ⟨withdrawalEvent, found, recursive⟩ := returned
        refine induction (advance _ _ withdrawalEvent matched ?_ continues.2
          found) recursive
        -- a request that is not exhausted was matched to the event's end
        have remaining := continues.1
        simp only [ClaimParameters.afterPiece, RedeemRequest.afterMatch,
          RedeemRequest.matched] at remaining ⊢
        omega
      · simp only [bind_eq_ok, pure_eq_ok, Prod.mk.injEq] at returned
        obtain ⟨saved, saving, rfl, rfl⟩ := returned
        exact ⟨_, matched, saving⟩

/-- A claim only changes the request it is about, the exceeding buffer and the
emitted events. -/
theorem claimRedeemRequest_frame {depth : Nat}
    {manager after : RedeemManager} {params final : ClaimParameters}
    (returned : claimRedeemRequest depth manager params =
      .ok (after, final)) :
    ∃ stored, manager.redeemQueue[params.redeemRequestId]? = some stored ∧
      final.redeemRequestId = params.redeemRequestId ∧
      final.redeemRequest.recipient = params.redeemRequest.recipient ∧
      after.redeemQueue = manager.redeemQueue.set params.redeemRequestId
        (savedRequest stored final) ∧
      after.withdrawalStack = manager.withdrawalStack ∧
      after.redeemDemand = manager.redeemDemand ∧
      after.balance = manager.balance ∧
      after.transfers = manager.transfers := by
  obtain ⟨matched, ⟨idEq, recipientEq, queueEq, stackEq, demandEq, balanceEq,
      transfersEq⟩, saving⟩ :=
    claimRedeemRequest_induction
      (motive := fun next nextParams =>
        nextParams.redeemRequestId = params.redeemRequestId ∧
        nextParams.redeemRequest.recipient =
          params.redeemRequest.recipient ∧
        next.redeemQueue = manager.redeemQueue ∧
        next.withdrawalStack = manager.withdrawalStack ∧
        next.redeemDemand = manager.redeemDemand ∧
        next.balance = manager.balance ∧
        next.transfers = manager.transfers)
      (fun _ _ holds _ _ _ => holds) (fun _ _ _ holds _ _ _ => holds)
      ⟨rfl, rfl, rfl, rfl, rfl, rfl, rfl⟩ returned
  obtain ⟨stored, found, rfl⟩ := saveRedeemRequest_ok saving
  rw [idEq, queueEq] at found
  exact ⟨stored, found, idEq, recipientEq, by rw [idEq, queueEq], stackEq,
    demandEq, balanceEq, transfersEq⟩

theorem payRecipient_ok {E : Type} {river : RiverCalls E}
    {world worldAfter : E} {manager after : RedeemManager}
    {recipient : Address} {ethAmount : Nat}
    (returned : payRecipient river world manager recipient ethAmount =
      .ok (after, worldAfter)) :
    ethAmount ≤ manager.balance ∧
      river.call world recipient ethAmount = some worldAfter ∧
      after = { manager with
        balance := manager.balance - ethAmount
        transfers := manager.transfers ++
          [.claimPayment recipient ethAmount] } := by
  simp only [payRecipient, bind_eq_ok, require_eq_ok] at returned
  obtain ⟨-, enough, returned⟩ := returned
  cases answer : river.call world recipient ethAmount with
  | none => simp [answer] at returned
  | some accepted =>
      simp only [answer, pure_eq_ok, Prod.mk.injEq] at returned
      obtain ⟨rfl, rfl⟩ := returned
      exact ⟨enough, rfl, rfl⟩

theorem isMatch_ok {redeemRequest : RedeemRequest}
    {withdrawalEvent : WithdrawalEvent} {answer : Bool}
    (returned : isMatch redeemRequest withdrawalEvent = .ok answer) :
    answer = true ↔ redeemRequest.height < withdrawalEvent.endPosition ∧
      withdrawalEvent.height ≤ redeemRequest.height := by
  simp only [isMatch, bind_eq_ok, uadd_eq_ok, pure_eq_ok] at returned
  obtain ⟨endPosition, ⟨-, rfl⟩, rfl⟩ := returned
  simp [WithdrawalEvent.endPosition]

/-- The parameters a claim starts with. -/
def initialParameters (call : ClaimCall) (redeemRequest : RedeemRequest)
    (withdrawalEvent : WithdrawalEvent)
    (redeemRequestId withdrawalEventId : Nat) : ClaimParameters :=
  { redeemRequest := redeemRequest
    withdrawalEvent := withdrawalEvent
    redeemRequestId := redeemRequestId
    withdrawalEventId := withdrawalEventId
    withdrawalEventCount := call.withdrawalEventCount
    lsETHAmount := 0
    ethAmount := 0 }

/-- What a claim that is not skipped went through. -/
structure ClaimRun {E : Type} (river : RiverCalls E) (call : ClaimCall)
    (world : E) (manager : RedeemManager)
    (redeemRequestId withdrawalEventId : Nat) (worldAfter : E)
    (after : RedeemManager) where
  request : RedeemRequest
  event : WithdrawalEvent
  saved : RedeemManager
  params : ClaimParameters
  requestFound : manager.redeemQueue[redeemRequestId]? = some request
  eventFound : manager.withdrawalStack[withdrawalEventId]? = some event
  requestCounted : redeemRequestId < call.redeemRequestCount
  eventCounted : withdrawalEventId < call.withdrawalEventCount
  recipientAllowed : river.isDenied world request.recipient = false
  initiatorAllowed : river.isDenied world request.initiator = false
  startsBeforeEnd : request.height < event.endPosition
  startsInside : event.height ≤ request.height
  claimed : claimRedeemRequest call.depth manager
    (initialParameters call request event redeemRequestId
      withdrawalEventId) = .ok (saved, params)
  enough : params.ethAmount ≤ saved.balance
  paid : river.call world params.redeemRequest.recipient params.ethAmount =
    some worldAfter
  result : after = ({ saved with
    balance := saved.balance - params.ethAmount
    transfers := saved.transfers ++
      [.claimPayment params.redeemRequest.recipient params.ethAmount] }
    : RedeemManager).emit (.claimedRedeemRequest redeemRequestId
      params.redeemRequest.recipient params.ethAmount params.lsETHAmount
      params.redeemRequest.amount)

namespace ClaimRun

variable {E : Type} {river : RiverCalls E} {call : ClaimCall}
  {world worldAfter : E} {manager after : RedeemManager}
  {redeemRequestId withdrawalEventId : Nat}
  (run : ClaimRun river call world manager redeemRequestId withdrawalEventId
    worldAfter after)

-- The payment after a claim leaves the stacks, the demand and the buffer as
-- the claim saved them.

theorem redeemQueue_eq : after.redeemQueue = run.saved.redeemQueue :=
  (congrArg RedeemManager.redeemQueue run.result).trans rfl

theorem withdrawalStack_eq :
    after.withdrawalStack = run.saved.withdrawalStack :=
  (congrArg RedeemManager.withdrawalStack run.result).trans rfl

theorem bufferedExceedingEth_eq :
    after.bufferedExceedingEth = run.saved.bufferedExceedingEth :=
  (congrArg RedeemManager.bufferedExceedingEth run.result).trans rfl

theorem balance_eq :
    after.balance = run.saved.balance - run.params.ethAmount :=
  (congrArg RedeemManager.balance run.result).trans rfl

theorem transfers_eq : after.transfers = run.saved.transfers ++
    [.claimPayment run.params.redeemRequest.recipient
      run.params.ethAmount] :=
  (congrArg RedeemManager.transfers run.result).trans rfl

theorem logs_eq : after.logs = run.saved.logs ++
    [.claimedRedeemRequest redeemRequestId
      run.params.redeemRequest.recipient run.params.ethAmount
      run.params.lsETHAmount run.params.redeemRequest.amount] :=
  (congrArg RedeemManager.logs run.result).trans rfl

-- Against the state before the claim, only the request it is about has
-- changed in the queue.

include run

theorem queue_set : after.redeemQueue = manager.redeemQueue.set
    redeemRequestId (savedRequest run.request run.params) := by
  obtain ⟨stored, found, -, -, queue, -⟩ :=
    claimRedeemRequest_frame run.claimed
  obtain rfl : stored = run.request :=
    Option.some.inj (found.symm.trans run.requestFound)
  exact run.redeemQueue_eq.trans queue

theorem stack_same : after.withdrawalStack = manager.withdrawalStack := by
  obtain ⟨-, -, -, -, -, stack, -⟩ := claimRedeemRequest_frame run.claimed
  exact run.withdrawalStack_eq.trans stack

theorem demand_same : after.redeemDemand = manager.redeemDemand := by
  obtain ⟨-, -, -, -, -, -, demand, -⟩ := claimRedeemRequest_frame run.claimed
  exact (congrArg RedeemManager.redeemDemand run.result).trans demand

end ClaimRun

/-- One iteration of the claim loop skips a claimed request or runs a
claim. -/
theorem claimOne_ok {E : Type} {river : RiverCalls E} {call : ClaimCall}
    {world worldAfter : E} {manager after : RedeemManager}
    {redeemRequestId withdrawalEventId : Nat} {status : ClaimStatus}
    (returned : claimOne river call world manager redeemRequestId
      withdrawalEventId = .ok (after, worldAfter, status)) :
    (after = manager ∧ worldAfter = world ∧ status = .skipped) ∨
      Nonempty (ClaimRun river call world manager redeemRequestId
        withdrawalEventId worldAfter after) := by
  simp only [claimOne, bind_eq_ok, require_eq_ok, fetch_eq_ok] at returned
  obtain ⟨-, requestCounted, -, eventCounted, request, requestFound, -,
    recipientAllowed, -, initiatorAllowed, returned⟩ := returned
  split at returned
  · simp only [bind_eq_ok, require_eq_ok, pure_eq_ok, Prod.mk.injEq]
      at returned
    obtain ⟨-, -, rfl, rfl, rfl⟩ := returned
    exact .inl ⟨rfl, rfl, rfl⟩
  · simp only [claimLoadedRequest, bind_eq_ok, fetch_eq_ok, require_eq_ok,
      pure_eq_ok, Prod.mk.injEq, Prod.exists] at returned
    obtain ⟨event, eventFound, matching, matchAnswer, -, isMatching, saved,
      params, claimed, paidManager, paidWorld, payment, rfl, rfl, -⟩ :=
      returned
    obtain ⟨startsBeforeEnd, startsInside⟩ :=
      (isMatch_ok matchAnswer).mp isMatching
    obtain ⟨enough, paid, rfl⟩ := payRecipient_ok payment
    exact .inr ⟨⟨request, event, saved, params, requestFound, eventFound,
      requestCounted, eventCounted, recipientAllowed, initiatorAllowed,
      startsBeforeEnd, startsInside, claimed, enough, paid, rfl⟩⟩

/-- The checks and reads that reject the ids of one iteration. -/
inductive ClaimRejected (redeemRequestId withdrawalEventId : Nat) :
    Error → Prop where
  | redeemRequestOutOfBounds : ClaimRejected redeemRequestId withdrawalEventId
      (.redeemRequestOutOfBounds redeemRequestId)
  | withdrawalEventOutOfBounds :
      ClaimRejected redeemRequestId withdrawalEventId
        (.withdrawalEventOutOfBounds withdrawalEventId)
  | outOfBounds : ClaimRejected redeemRequestId withdrawalEventId
      (.panic .outOfBounds)
  | recipientDenied : ClaimRejected redeemRequestId withdrawalEventId
      .claimRecipientIsDenied
  | initiatorDenied : ClaimRejected redeemRequestId withdrawalEventId
      .claimInitiatorIsDenied
  | alreadyClaimed : ClaimRejected redeemRequestId withdrawalEventId
      (.redeemRequestAlreadyClaimed redeemRequestId)
  | endOverflow : ClaimRejected redeemRequestId withdrawalEventId
      (.panic .overflow)
  | doesNotMatch : ClaimRejected redeemRequestId withdrawalEventId
      (.doesNotMatch redeemRequestId withdrawalEventId)

/-- A failing iteration rejects its ids, or a request that matches its event
fails to be claimed or paid. -/
theorem claimOne_error {E : Type} {river : RiverCalls E} {call : ClaimCall}
    {world : E} {manager : RedeemManager}
    {redeemRequestId withdrawalEventId : Nat} {failure : Error}
    (failed : claimOne river call world manager redeemRequestId
      withdrawalEventId = .error failure) :
    ClaimRejected redeemRequestId withdrawalEventId failure ∨
      ∃ request event,
        manager.redeemQueue[redeemRequestId]? = some request ∧
        manager.withdrawalStack[withdrawalEventId]? = some event ∧
        redeemRequestId < call.redeemRequestCount ∧
        withdrawalEventId < call.withdrawalEventCount ∧
        request.height < event.endPosition ∧
        event.height ≤ request.height ∧
        (claimRedeemRequest call.depth manager (initialParameters call request
            event redeemRequestId withdrawalEventId) = .error failure ∨
          ∃ saved params,
            claimRedeemRequest call.depth manager (initialParameters call
              request event redeemRequestId withdrawalEventId) =
                .ok (saved, params) ∧
            payRecipient river world saved params.redeemRequest.recipient
              params.ethAmount = .error failure) := by
  simp only [claimOne, bind_eq_error, require_eq_error, require_eq_ok,
    fetch_eq_error, fetch_eq_ok] at failed
  rcases failed with ⟨-, rfl⟩ | ⟨-, requestCounted, failed⟩
  · exact .inl .redeemRequestOutOfBounds
  rcases failed with ⟨-, rfl⟩ | ⟨-, eventCounted, failed⟩
  · exact .inl .withdrawalEventOutOfBounds
  rcases failed with ⟨-, rfl⟩ | ⟨request, requestFound, failed⟩
  · exact .inl .outOfBounds
  rcases failed with ⟨-, rfl⟩ | ⟨-, -, failed⟩
  · exact .inl .recipientDenied
  rcases failed with ⟨-, rfl⟩ | ⟨-, -, failed⟩
  · exact .inl .initiatorDenied
  split at failed
  · simp only [bind_eq_error, require_eq_error, pure_eq_error, and_false,
      exists_false, or_false] at failed
    obtain ⟨-, rfl⟩ := failed
    exact .inl .alreadyClaimed
  · simp only [claimLoadedRequest, bind_eq_error, require_eq_error,
      require_eq_ok, fetch_eq_error, fetch_eq_ok, pure_eq_error, and_false,
      exists_false, or_false, Prod.exists] at failed
    rcases failed with ⟨-, rfl⟩ | ⟨event, eventFound, failed⟩
    · exact .inl .outOfBounds
    rcases failed with matching | ⟨matching, answer, failed⟩
    · simp only [isMatch, bind_eq_error, uadd_eq_error, pure_eq_error,
        and_false, exists_false, or_false] at matching
      obtain ⟨-, rfl⟩ := matching
      exact .inl .endOverflow
    rcases failed with ⟨-, rfl⟩ | ⟨-, isMatching, failed⟩
    · exact .inl .doesNotMatch
    obtain ⟨startsBeforeEnd, startsInside⟩ := (isMatch_ok answer).mp isMatching
    exact .inr ⟨request, event, requestFound, eventFound, requestCounted,
      eventCounted, startsBeforeEnd, startsInside, failed⟩

/-- An invariant every iteration preserves is preserved by the claim loop. -/
theorem claimAll_induction {E : Type} {river : RiverCalls E}
    {call : ClaimCall} {motive : E → RedeemManager → Prop}
    (one : ∀ world manager worldAfter after redeemRequestId
      withdrawalEventId, motive world manager →
      ClaimRun river call world manager redeemRequestId withdrawalEventId
        worldAfter after → motive worldAfter after)
    {pairs : List (Nat × Nat)} {world worldAfter : E}
    {manager after : RedeemManager} {statuses : List ClaimStatus}
    (holds : motive world manager)
    (returned : claimAll river call pairs world manager =
      .ok (after, worldAfter, statuses)) : motive worldAfter after := by
  induction pairs generalizing world manager statuses with
  | nil =>
      simp only [claimAll, pure_eq_ok, Prod.mk.injEq] at returned
      obtain ⟨rfl, rfl, -⟩ := returned
      exact holds
  | cons pair pairs induction =>
      simp only [claimAll, bind_eq_ok, pure_eq_ok, Prod.mk.injEq,
        Prod.exists] at returned
      obtain ⟨next, nextWorld, status, first, final, finalWorld, rest,
        remaining, rfl, rfl, rfl⟩ := returned
      refine induction ?_ remaining
      rcases claimOne_ok first with ⟨rfl, rfl, -⟩ | runs
      · exact holds
      · exact runs.elim (one _ _ _ _ _ _ holds)

/-- A batch fails at one of its claims, in a state the claims before it
lead to. -/
theorem claimAll_error {E : Type} {river : RiverCalls E} {call : ClaimCall}
    {motive : RedeemManager → Prop}
    (one : ∀ {world worldAfter : E} {manager after : RedeemManager}
      {redeemRequestId withdrawalEventId : Nat}, motive manager →
      ClaimRun river call world manager redeemRequestId withdrawalEventId
        worldAfter after → motive after)
    {pairs : List (Nat × Nat)} {world : E} {manager : RedeemManager}
    {failure : Error} (holds : motive manager)
    (failed : claimAll river call pairs world manager = .error failure) :
    ∃ reached worldReached redeemRequestId withdrawalEventId,
      motive reached ∧
        claimOne river call worldReached reached redeemRequestId
          withdrawalEventId = .error failure := by
  induction pairs generalizing world manager with
  | nil =>
      simp only [claimAll, pure_eq_error] at failed
  | cons pair pairs induction =>
      simp only [claimAll, bind_eq_error, pure_eq_error, and_false,
        exists_false, or_false, Prod.exists] at failed
      rcases failed with first | ⟨next, nextWorld, status, first, rest⟩
      · exact ⟨manager, world, pair.1, pair.2, holds, first⟩
      · rcases claimOne_ok first with ⟨rfl, -, -⟩ | runs
        · exact induction holds rest
        · exact runs.elim fun run => induction (one holds run) rest

/-- A claim call may be taken one claim at a time. -/
theorem claimRedeemRequests_induction {E : Type} {river : RiverCalls E}
    {motive : RedeemManager → Prop}
    (one : ∀ {call : ClaimCall} {world worldAfter : E}
      {manager after : RedeemManager}
      {redeemRequestId withdrawalEventId : Nat},
      call.withdrawalEventCount < uint32Limit →
      call.redeemRequestCount < uint32Limit → motive manager →
      ClaimRun river call world manager redeemRequestId withdrawalEventId
        worldAfter after → motive after)
    {world worldAfter : E} {manager after : RedeemManager}
    {redeemRequestIds withdrawalEventIds : List Nat}
    {skipAlreadyClaimed : Bool} {depth : Nat} {statuses : List ClaimStatus}
    (holds : motive manager)
    (returned : claimRedeemRequests river world manager redeemRequestIds
      withdrawalEventIds skipAlreadyClaimed depth =
      .ok (after, worldAfter, statuses)) : motive after := by
  simp only [claimRedeemRequests, bind_eq_ok, require_eq_ok] at returned
  obtain ⟨-, -, loop⟩ := returned
  refine claimAll_induction (motive := fun _ next => motive next) ?_ holds
    loop
  intro world manager worldAfter after requestId eventId preserved run
  exact one (toUint32_lt _) (toUint32_lt _) preserved run

/-- A request is the transfer of its LsETH and one new entry. -/
theorem requestRedeem_eq_ok {E : Type} {river : RiverCalls E}
    {world worldAfter : E} {manager after : RedeemManager}
    {lsETHAmount id : Nat} {recipient initiator : Address} :
    requestRedeem river world manager lsETHAmount recipient initiator =
        .ok (after, worldAfter, id) ↔
      recipient ≠ .zero ∧ lsETHAmount ≠ 0 ∧
      id = toUint32 manager.redeemQueue.length ∧
      river.transferFrom world lsETHAmount = .ok (true, worldAfter) ∧
      ∃ height maxRedeemableEth,
        nextHeight (manager.redeemQueue.map RedeemRequest.position) id =
          .ok height ∧
        river.underlyingBalanceFromShares worldAfter lsETHAmount =
          .ok maxRedeemableEth ∧
        manager.redeemDemand + lsETHAmount < wordLimit ∧
        after = { manager with
          redeemQueue := manager.redeemQueue ++
            [{ height := height, amount := lsETHAmount,
               recipient := recipient, initiator := initiator,
               maxRedeemableEth := maxRedeemableEth }]
          redeemDemand := manager.redeemDemand + lsETHAmount
          logs := manager.logs ++
            [.setRedeemDemand manager.redeemDemand
              (manager.redeemDemand + lsETHAmount)] ++
            [.requestedRedeem recipient height lsETHAmount
              maxRedeemableEth id] } := by
  simp only [requestRedeem, notZeroAddress, bind_eq_ok, require_eq_ok,
    uadd_eq_ok, pure_eq_ok, Prod.mk.injEq, Prod.exists]
  constructor
  · rintro ⟨-, nonzeroRecipient, -, nonzeroAmount, transferred, nextWorld,
      transfer, -, rfl, height, heightRead, maximum, maximumRead, demand,
      ⟨fits, rfl⟩, rfl, rfl, rfl⟩
    exact ⟨nonzeroRecipient, nonzeroAmount, rfl, transfer, height, maximum,
      heightRead, maximumRead, fits, rfl⟩
  · rintro ⟨nonzeroRecipient, nonzeroAmount, rfl, transfer, height, maximum,
      heightRead, maximumRead, fits, rfl⟩
    exact ⟨(), nonzeroRecipient, (), nonzeroAmount, true, worldAfter, transfer,
      (), rfl, height, heightRead, maximum, maximumRead, _, ⟨fits, rfl⟩, rfl,
      rfl, rfl⟩

theorem reportWithdraw_ok {manager after : RedeemManager}
    {lsETHWithdrawable msgValue : Nat}
    (returned : reportWithdraw manager lsETHWithdrawable msgValue =
      .ok after) :
    lsETHWithdrawable ≤ manager.redeemDemand ∧
      manager.balance + msgValue < wordLimit ∧
      ∃ height,
        nextHeight (manager.withdrawalStack.map WithdrawalEvent.position)
          (toUint32 manager.withdrawalStack.length) = .ok height ∧
        after = { manager with
          balance := manager.balance + msgValue
          withdrawalStack := manager.withdrawalStack ++
            [{ height := height, amount := lsETHWithdrawable,
               withdrawnEth := msgValue }]
          redeemDemand := manager.redeemDemand - lsETHWithdrawable
          logs := manager.logs ++
            [.setRedeemDemand manager.redeemDemand
              (manager.redeemDemand - lsETHWithdrawable)] ++
            [.reportedWithdrawal height lsETHWithdrawable msgValue
              (toUint32 manager.withdrawalStack.length)] } := by
  simp only [reportWithdraw, bind_eq_ok, require_eq_ok, uadd_eq_ok,
    pure_eq_ok] at returned
  obtain ⟨balance, ⟨fits, rfl⟩, -, bounded, height, heightRead, rfl⟩ :=
    returned
  exact ⟨bounded, fits, height, heightRead, rfl⟩

theorem pullExceedingEth_ok {manager after : RedeemManager} {max sent : Nat}
    (returned : pullExceedingEth manager max = .ok (after, sent)) :
    sent = min manager.bufferedExceedingEth max ∧ sent ≤ manager.balance ∧
      after = { manager with
        bufferedExceedingEth := manager.bufferedExceedingEth - sent
        balance := manager.balance - sent
        transfers := manager.transfers ++
          if sent = 0 then [] else [.exceedingPull sent] } := by
  simp only [pullExceedingEth, LibUint256.min_eq] at returned
  split at returned
  · rename_i positive
    simp only [bind_eq_ok, usub_eq_ok, require_eq_ok, pure_eq_ok,
      Prod.mk.injEq] at returned
    obtain ⟨buffered, ⟨-, rfl⟩, -, enough, rfl, rfl⟩ := returned
    refine ⟨rfl, enough, ?_⟩
    rw [if_neg (Nat.pos_iff_ne_zero.mp positive)]
  · rename_i empty
    simp only [pure_eq_ok, Prod.mk.injEq] at returned
    obtain ⟨rfl, rfl⟩ := returned
    exact ⟨by omega, Nat.zero_le _, by simp⟩

/-- The redeem manager takes one successful call, whatever River and the
recipients answer. -/
inductive Step : RedeemManager → RedeemManager → Prop where
  | requestRedeem {E : Type} {river : RiverCalls E} {world worldAfter : E}
      {manager after : RedeemManager} {lsETHAmount id : Nat}
      {recipient initiator : Address} :
      requestRedeem river world manager lsETHAmount recipient initiator =
        .ok (after, worldAfter, id) → Step manager after
  | reportWithdraw {manager after : RedeemManager}
      {lsETHWithdrawable msgValue : Nat} :
      reportWithdraw manager lsETHWithdrawable msgValue = .ok after →
      Step manager after
  | claimRedeemRequests {E : Type} {river : RiverCalls E}
      {world worldAfter : E} {manager after : RedeemManager}
      {redeemRequestIds withdrawalEventIds : List Nat}
      {skipAlreadyClaimed : Bool} {depth : Nat}
      {statuses : List ClaimStatus} :
      claimRedeemRequests river world manager redeemRequestIds
        withdrawalEventIds skipAlreadyClaimed depth =
        .ok (after, worldAfter, statuses) → Step manager after
  | pullExceedingEth {manager after : RedeemManager} {max sent : Nat} :
      pullExceedingEth manager max = .ok (after, sent) → Step manager after

/-- States a fresh redeem manager reaches by any run of calls. -/
def Reachable (manager : RedeemManager) : Prop :=
  Relation.ReflTransGen Step fresh manager

/-- A step preserves what each kind of call preserves; a claim call may be
taken one claim at a time. -/
theorem step_preserves {motive : RedeemManager → Prop}
    (request : ∀ {E : Type} {river : RiverCalls E} {world worldAfter : E}
      {manager after : RedeemManager} {lsETHAmount id : Nat}
      {recipient initiator : Address}, motive manager →
      RedeemManager.requestRedeem river world manager lsETHAmount recipient
        initiator = .ok (after, worldAfter, id) → motive after)
    (withdraw : ∀ {manager after : RedeemManager}
      {lsETHWithdrawable msgValue : Nat}, motive manager →
      RedeemManager.reportWithdraw manager lsETHWithdrawable msgValue =
        .ok after → motive after)
    (claim : ∀ {E : Type} {river : RiverCalls E} {call : ClaimCall}
      {world worldAfter : E} {manager after : RedeemManager}
      {redeemRequestId withdrawalEventId : Nat},
      call.withdrawalEventCount < uint32Limit →
      call.redeemRequestCount < uint32Limit → motive manager →
      ClaimRun river call world manager redeemRequestId withdrawalEventId
        worldAfter after → motive after)
    (pull : ∀ {manager after : RedeemManager} {max sent : Nat},
      motive manager → RedeemManager.pullExceedingEth manager max =
        .ok (after, sent) → motive after)
    {manager after : RedeemManager} (holds : motive manager)
    (step : Step manager after) : motive after := by
  cases step with
  | requestRedeem returned => exact request holds returned
  | reportWithdraw returned => exact withdraw holds returned
  | claimRedeemRequests returned =>
      exact claimRedeemRequests_induction claim holds returned
  | pullExceedingEth returned => exact pull holds returned

end RedeemManager

end RiverProtocol
