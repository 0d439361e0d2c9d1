import RiverProtocol.Lib.Paths
import RiverProtocol.RedeemManager.Solvency

/-!
# Claims in any order

The pieces of a request are fixed by the geometry: the next piece is taken
from the one event that contains the start of what is left.  A claim walks
some of these pieces, so however claims are ordered, batched and cut, a
request that is claimed to its end has walked the same path.
-/

namespace RiverProtocol

open Checked Outcome Lists Segments Paths

namespace RedeemManager

/-- One piece of a request on a stack of events, weighed by the ether paid and
the ether diverted. -/
structure Piece (stack : List WithdrawalEvent) (request : RedeemRequest)
    (weight : Nat × Nat) (next : RedeemRequest) : Prop where
  exists_event : ∃ id event, id < uint32Limit ∧ stack[id]? = some event ∧
    event.height ≤ request.height ∧ request.height < event.endPosition ∧
    weight = (request.paidEth event, request.exceedingEth event) ∧
    next = request.afterMatch event
  unclaimed : request.amount ≠ 0

/-- The events that can be named lie one after another on the line. -/
def Consecutive (stack : List WithdrawalEvent) : Prop :=
  ∀ id event, id < uint32Limit → stack[id]? = some event →
    event.height = ((stack.map WithdrawalEvent.amount).take id).sum

theorem Geometry.consecutive {manager : RedeemManager}
    (geometry : Geometry manager) : Consecutive manager.withdrawalStack :=
  geometry.event_start

section Piece

variable {stack : List WithdrawalEvent} {request next : RedeemRequest}
  {weight : Nat × Nat}

theorem Consecutive.ordered (consecutive : Consecutive stack)
    {id later : Nat} {event other : WithdrawalEvent}
    (small : later < uint32Limit) (before : id < later)
    (found : stack[id]? = some event)
    (otherFound : stack[later]? = some other) :
    event.endPosition ≤ other.height := by
  have amount : (stack.map WithdrawalEvent.amount)[id]? =
      some event.amount := by
    rw [List.getElem?_map, found]
    rfl
  rw [WithdrawalEvent.endPosition,
    consecutive id event (before.trans small) found,
    consecutive later other small otherFound, ← sum_take_succ amount]
  exact sum_take_mono _ before

theorem Consecutive.deterministic (consecutive : Consecutive stack) :
    Deterministic (Piece stack) := by
  intro start first middle second other taken also
  obtain ⟨⟨id, event, small, found, below, above, rfl, rfl⟩, -⟩ := taken
  obtain ⟨⟨otherId, otherEvent, otherSmall, otherFound, otherBelow,
    otherAbove, rfl, rfl⟩, -⟩ := also
  have same : id = otherId := by
    rcases Nat.lt_trichotomy id otherId with before | same | behind
    · have apart := consecutive.ordered otherSmall before found otherFound
      omega
    · exact same
    · have apart := consecutive.ordered small behind otherFound found
      omega
  subst same
  obtain rfl : event = otherEvent :=
    Option.some.inj (found.symm.trans otherFound)
  exact ⟨rfl, rfl⟩

theorem terminal_of_claimed (claimed : request.amount = 0) :
    Terminal (Piece stack) request :=
  fun _ _ piece => piece.unclaimed claimed

theorem Piece.grow {later : List WithdrawalEvent}
    (piece : Piece stack request weight next) :
    Piece (stack ++ later) request weight next := by
  obtain ⟨⟨id, event, small, found, rest⟩, unclaimed⟩ := piece
  refine ⟨⟨id, event, small, ?_, rest⟩, unclaimed⟩
  rw [List.getElem?_append_left (List.getElem?_eq_some_iff.mp found).1]
  exact found

theorem path_owners (path : Path (Piece stack) request weight next) :
    next.recipient = request.recipient ∧
      next.initiator = request.initiator := by
  induction path with
  | refl => exact ⟨rfl, rfl⟩
  | head taken _ induction =>
      obtain ⟨⟨id, event, -, -, -, -, -, rfl⟩, -⟩ := taken
      exact induction

/-- Matching a request that starts where the event ends changes nothing. -/
theorem afterMatch_of_end {event : WithdrawalEvent}
    (ended : event.endPosition ≤ request.height) :
    request.afterMatch event = request ∧ request.paidEth event = 0 ∧
      request.exceedingEth event = 0 := by
  have nothing : request.matched event = 0 := by
    rw [RedeemRequest.matched, Nat.sub_eq_zero_of_le ended]
    exact Nat.min_zero _
  have paid : request.paidEth event = 0 := by
    rw [RedeemRequest.paidEth, RedeemRequest.matchedEth, nothing,
      prorated_zero]
    exact Nat.zero_min _
  refine ⟨?_, paid, ?_⟩
  · rw [RedeemRequest.afterMatch, nothing, paid]
    rfl
  · rw [RedeemRequest.exceedingEth, RedeemRequest.matchedEth, nothing,
      prorated_zero]
    exact Nat.zero_sub _

end Piece

/-- The ether claim payments sent for a request. -/
def RedeemLog.receivedBy (id : Nat) : RedeemLog → Nat
  | .claimedRedeemRequest redeemRequestId _ ethAmount _ _ =>
    if redeemRequestId = id then ethAmount else 0
  | _ => 0

/-- The ether a piece of a request diverts to the exceeding buffer. -/
def RedeemLog.exceededBy (id : Nat) : RedeemLog → Nat
  | .satisfiedRedeemRequest redeemRequestId _ _ _ _ ethAmountExceeding =>
    if redeemRequestId = id then ethAmountExceeding else 0
  | _ => 0

def receivedBy (logs : List RedeemLog) (id : Nat) : Nat :=
  (logs.map (RedeemLog.receivedBy id)).sum

def exceededBy (logs : List RedeemLog) (id : Nat) : Nat :=
  (logs.map (RedeemLog.exceededBy id)).sum

@[simp] theorem receivedBy_append (logs later : List RedeemLog) (id : Nat) :
    receivedBy (logs ++ later) id =
      receivedBy logs id + receivedBy later id := by
  simp [receivedBy]

@[simp] theorem exceededBy_append (logs later : List RedeemLog) (id : Nat) :
    exceededBy (logs ++ later) id =
      exceededBy logs id + exceededBy later id := by
  simp [exceededBy]

section Claim

variable {manager after : RedeemManager}

/-- A running claim has walked a part of the path of its request. -/
structure Walked (manager : RedeemManager) (request : RedeemRequest)
    (id : Nat) (next : RedeemManager) (params : ClaimParameters) : Prop where
  requestId : params.redeemRequestId = id
  stack : next.withdrawalStack = manager.withdrawalStack
  queue : next.redeemQueue = manager.redeemQueue
  countSmall : params.withdrawalEventCount < uint32Limit
  eventCounted : params.withdrawalEventId < params.withdrawalEventCount
  eventFound : manager.withdrawalStack[params.withdrawalEventId]? =
    some params.withdrawalEvent
  startsInside : params.withdrawalEvent.height ≤ params.redeemRequest.height
  received : ∀ other, receivedBy next.logs other =
    receivedBy manager.logs other
  exceeded : ∀ other, other ≠ id →
    exceededBy next.logs other = exceededBy manager.logs other
  path : ∃ diverted,
    Path (Piece manager.withdrawalStack) request
      (params.ethAmount, diverted) params.redeemRequest ∧
    exceededBy next.logs id = exceededBy manager.logs id + diverted

theorem Walked.piece {request : RedeemRequest} {id : Nat}
    {next : RedeemManager} {params : ClaimParameters}
    (walked : Walked manager request id next params)
    (unclaimed : params.redeemRequest.amount ≠ 0) :
    Walked manager request id (next.afterPiece params)
      params.afterPiece := by
  obtain ⟨requestId, stack, queue, countSmall, eventCounted, eventFound,
    startsInside, received, exceeded, diverted, path, total⟩ := walked
  refine ⟨requestId, stack, queue, countSmall, eventCounted, eventFound,
    startsInside.trans (Nat.le_add_right _ _), ?_, ?_, ?_⟩
  · intro other
    simp only [RedeemManager.afterPiece, receivedBy_append]
    rw [received other]
    rfl
  · intro other different
    simp only [RedeemManager.afterPiece, exceededBy_append]
    rw [exceeded other different]
    simp [exceededBy, RedeemLog.exceededBy, pieceLog, requestId,
      Ne.symm different]
  · have logged : exceededBy (next.afterPiece params).logs id =
        exceededBy manager.logs id + (diverted +
          params.redeemRequest.exceedingEth params.withdrawalEvent) := by
      simp only [RedeemManager.afterPiece, exceededBy_append]
      rw [total, Nat.add_assoc]
      simp [exceededBy, RedeemLog.exceededBy, pieceLog, requestId]
    by_cases strict : params.redeemRequest.height <
        params.withdrawalEvent.endPosition
    · refine ⟨_, ?_, logged⟩
      have further : Piece manager.withdrawalStack params.redeemRequest
          (params.redeemRequest.paidEth params.withdrawalEvent,
            params.redeemRequest.exceedingEth params.withdrawalEvent)
          (params.redeemRequest.afterMatch params.withdrawalEvent) :=
        ⟨⟨_, _, eventCounted.trans countSmall, eventFound, startsInside,
          strict, rfl, rfl⟩, unclaimed⟩
      exact path.trans (.single further)
    · obtain ⟨same, paid, nothing⟩ :=
        afterMatch_of_end (Nat.le_of_not_lt strict)
      rw [nothing, Nat.add_zero] at logged
      refine ⟨diverted, ?_, logged⟩
      simp only [ClaimParameters.afterPiece]
      rw [same, paid]
      exact path

theorem Walked.advance {request : RedeemRequest} {id : Nat}
    {next : RedeemManager} {params : ClaimParameters}
    {withdrawalEvent : WithdrawalEvent} (geometry : Geometry manager)
    (walked : Walked manager request id next params)
    (finished : params.redeemRequest.height =
      params.withdrawalEvent.endPosition)
    (counted : params.withdrawalEventId + 1 < params.withdrawalEventCount)
    (found : next.withdrawalStack[params.withdrawalEventId + 1]? =
      some withdrawalEvent) :
    Walked manager request id next (params.withNextEvent withdrawalEvent) := by
  rw [walked.stack] at found
  have touches := geometry.event_next (counted.trans walked.countSmall)
    walked.eventFound found
  exact ⟨walked.requestId, walked.stack, walked.queue, walked.countSmall,
    counted, found, Nat.le_of_eq (touches.trans finished.symm),
    walked.received, walked.exceeded, walked.path⟩

/-- What a claim does to the request it is about and to the others. -/
structure Claimed (manager after : RedeemManager) (id : Nat) : Prop where
  stack : after.withdrawalStack = manager.withdrawalStack
  other : ∀ other, other ≠ id →
    after.redeemQueue[other]? = manager.redeemQueue[other]? ∧
      receivedBy after.logs other = receivedBy manager.logs other ∧
      exceededBy after.logs other = exceededBy manager.logs other
  length : after.redeemQueue.length = manager.redeemQueue.length
  walked : ∃ request claimed weight,
    manager.redeemQueue[id]? = some request ∧
    after.redeemQueue[id]? = some claimed ∧
    Path (Piece manager.withdrawalStack) request weight claimed ∧
    receivedBy after.logs id = receivedBy manager.logs id + weight.1 ∧
    exceededBy after.logs id = exceededBy manager.logs id + weight.2

theorem ClaimRun.claims {E : Type} {river : RiverCalls E} {call : ClaimCall}
    {world worldAfter : E} {redeemRequestId withdrawalEventId : Nat}
    (geometry : Geometry manager)
    (eventCount : call.withdrawalEventCount < uint32Limit)
    (run : ClaimRun river call world manager redeemRequestId
      withdrawalEventId worldAfter after) :
    Claimed manager after redeemRequestId := by
  obtain ⟨next, walked, saving⟩ :=
    claimRedeemRequest_induction
      (motive := Walked manager run.request redeemRequestId)
      (fun _ _ walked _ _ unclaimed => walked.piece unclaimed)
      (fun _ _ _ walked finished counted found =>
        walked.advance geometry finished counted found)
      ⟨rfl, rfl, rfl, eventCount, run.eventCounted, run.eventFound,
        run.startsInside, fun _ => rfl, fun _ _ => rfl, 0, .refl _, rfl⟩
      run.claimed
  obtain ⟨diverted, path, total⟩ := walked.path
  obtain ⟨stored, -, saved⟩ := saveRedeemRequest_ok saving
  have inside := (List.getElem?_eq_some_iff.mp run.requestFound).1
  have written : savedRequest run.request run.params =
      run.params.redeemRequest := by
    obtain ⟨recipient, initiator⟩ := path_owners path
    rw [savedRequest, ← recipient, ← initiator]
  have queue : after.redeemQueue = manager.redeemQueue.set redeemRequestId
      run.params.redeemRequest := by
    rw [run.queue_set, written]
  have logs : after.logs = next.logs ++
      [.claimedRedeemRequest redeemRequestId
        run.params.redeemRequest.recipient run.params.ethAmount
        run.params.lsETHAmount run.params.redeemRequest.amount] := by
    rw [run.logs_eq, saved]
  refine ⟨run.stack_same, ?_, ?_, ?_⟩
  · intro other different
    refine ⟨?_, ?_, ?_⟩
    · rw [queue, List.getElem?_set_ne (Ne.symm different)]
    · rw [logs, receivedBy_append, walked.received other]
      simp [receivedBy, RedeemLog.receivedBy, Ne.symm different]
    · rw [logs, exceededBy_append, walked.exceeded other different]
      rfl
  · rw [queue, List.length_set]
  · refine ⟨run.request, run.params.redeemRequest, _, run.requestFound, ?_,
      path, ?_, ?_⟩
    · rw [queue, List.getElem?_set_self inside]
    · rw [logs, receivedBy_append, walked.received]
      simp [receivedBy, RedeemLog.receivedBy]
    · rw [logs, exceededBy_append, total]
      rfl

end Claim

/-- A run from a state, with the withdrawals reported and the requests pushed
in it. -/
inductive Schedule (manager : RedeemManager) :
    List (Nat × Nat) → List RedeemRequest → RedeemManager → Prop where
  | start : Schedule manager [] [] manager
  | requestRedeem {reports : List (Nat × Nat)}
      {requests : List RedeemRequest} {middle after : RedeemManager}
      {E : Type} {river : RiverCalls E} {world worldAfter : E}
      {lsETHAmount id : Nat} {recipient initiator : Address} :
      Schedule manager reports requests middle →
      requestRedeem river world middle lsETHAmount recipient initiator =
        .ok (after, worldAfter, id) →
      Schedule manager reports
        (requests ++ after.redeemQueue.drop middle.redeemQueue.length) after
  | reportWithdraw {reports : List (Nat × Nat)}
      {requests : List RedeemRequest} {middle after : RedeemManager}
      {lsETHWithdrawable msgValue : Nat} :
      Schedule manager reports requests middle →
      reportWithdraw middle lsETHWithdrawable msgValue = .ok after →
      Schedule manager (reports ++ [(lsETHWithdrawable, msgValue)]) requests
        after
  | claimRedeemRequests {reports : List (Nat × Nat)}
      {requests : List RedeemRequest} {middle after : RedeemManager}
      {E : Type} {river : RiverCalls E} {world worldAfter : E}
      {redeemRequestIds withdrawalEventIds : List Nat}
      {skipAlreadyClaimed : Bool} {depth : Nat}
      {statuses : List ClaimStatus} :
      Schedule manager reports requests middle →
      claimRedeemRequests river world middle redeemRequestIds
        withdrawalEventIds skipAlreadyClaimed depth =
        .ok (after, worldAfter, statuses) →
      Schedule manager reports requests after
  | pullExceedingEth {reports : List (Nat × Nat)}
      {requests : List RedeemRequest} {middle after : RedeemManager}
      {max sent : Nat} : Schedule manager reports requests middle →
      pullExceedingEth middle max = .ok (after, sent) →
      Schedule manager reports requests after

section Schedule

variable {manager after : RedeemManager} {reports : List (Nat × Nat)}
  {requests : List RedeemRequest}

theorem Schedule.run (schedule : Schedule manager reports requests after) :
    Relation.ReflTransGen Step manager after := by
  induction schedule with
  | start => exact .refl
  | requestRedeem _ returned induction =>
      exact induction.tail (.requestRedeem returned)
  | reportWithdraw _ returned induction =>
      exact induction.tail (.reportWithdraw returned)
  | claimRedeemRequests _ returned induction =>
      exact induction.tail (.claimRedeemRequests returned)
  | pullExceedingEth _ returned induction =>
      exact induction.tail (.pullExceedingEth returned)

/-- The stack after a reported withdrawal. -/
def pushEvent (stack : List WithdrawalEvent) (report : Nat × Nat) :
    Except Error (List WithdrawalEvent) := do
  let height ← nextHeight (stack.map WithdrawalEvent.position)
    (toUint32 stack.length)
  return stack ++
    [{ height := height, amount := report.1, withdrawnEth := report.2 }]

/-- The reported withdrawals alone determine the stack. -/
theorem Schedule.stack (schedule : Schedule manager reports requests after) :
    reports.foldlM pushEvent manager.withdrawalStack =
      .ok after.withdrawalStack := by
  induction schedule with
  | start => rfl
  | requestRedeem _ returned induction =>
      obtain ⟨-, -, -, -, height, maximum, -, -, -, rfl⟩ :=
        requestRedeem_eq_ok.mp returned
      exact induction
  | reportWithdraw _ returned induction =>
      obtain ⟨-, -, height, heightRead, rfl⟩ := reportWithdraw_ok returned
      rw [List.foldlM_append, induction, ok_bind, List.foldlM_cons, pushEvent,
        heightRead]
      rfl
  | claimRedeemRequests _ returned induction =>
      apply claimRedeemRequests_induction (motive := fun next =>
        _ = Except.ok next.withdrawalStack) ?_ induction returned
      intro call world worldAfter manager after requestId eventId _ _ same run
      obtain ⟨claimed, -, -, -, stack, -, -⟩ := run.moves_start
      rw [stack]
      exact same
  | pullExceedingEth _ returned induction =>
      obtain ⟨-, -, rfl⟩ := pullExceedingEth_ok returned
      exact induction

/-- Every request has walked its path from where it stood, and what it
received is the weight of that walk. -/
structure Traced (manager : RedeemManager) (opened : List RedeemRequest)
    (after : RedeemManager) : Prop where
  length : after.redeemQueue.length = opened.length
  walked : ∀ id request, opened[id]? = some request →
    ∃ claimed weight, after.redeemQueue[id]? = some claimed ∧
      Path (Piece after.withdrawalStack) request weight claimed ∧
      receivedBy after.logs id = receivedBy manager.logs id + weight.1 ∧
      exceededBy after.logs id = exceededBy manager.logs id + weight.2
  absent : ∀ id, opened.length ≤ id →
    receivedBy after.logs id = receivedBy manager.logs id ∧
      exceededBy after.logs id = exceededBy manager.logs id

theorem Traced.claim {opened : List RedeemRequest} {middle : RedeemManager}
    {id : Nat} (traced : Traced manager opened middle)
    (claims : Claimed middle after id) : Traced manager opened after := by
  obtain ⟨request, claimed, weight, found, foundAfter, path, received,
    exceeded⟩ := claims.walked
  have inside : id < opened.length := by
    rw [← traced.length]
    exact (List.getElem?_eq_some_iff.mp found).1
  refine ⟨claims.length.trans traced.length, ?_, ?_⟩
  · intro other origin present
    obtain ⟨stood, walkedWeight, stoodFound, walked, receivedBefore,
      exceededBefore⟩ := traced.walked other origin present
    rw [claims.stack]
    by_cases same : other = id
    · subst same
      obtain rfl : stood = request :=
        Option.some.inj (stoodFound.symm.trans found)
      refine ⟨claimed, _, foundAfter, walked.trans path, ?_, ?_⟩
      · rw [received, receivedBefore, Nat.add_assoc]
        rfl
      · rw [exceeded, exceededBefore, Nat.add_assoc]
        rfl
    · obtain ⟨queue, receivedSame, exceededSame⟩ := claims.other other same
      exact ⟨stood, walkedWeight, queue.trans stoodFound, walked,
        receivedSame.trans receivedBefore, exceededSame.trans exceededBefore⟩
  · intro other outside
    obtain ⟨-, receivedSame, exceededSame⟩ :=
      claims.other other (by omega)
    obtain ⟨receivedBefore, exceededBefore⟩ := traced.absent other outside
    exact ⟨receivedSame.trans receivedBefore,
      exceededSame.trans exceededBefore⟩

/-- Opening requests and reporting withdrawals pays nothing. -/
theorem Traced.grow {opened added : List RedeemRequest}
    {middle : RedeemManager}
    (traced : Traced manager opened middle)
    (queue : after.redeemQueue = middle.redeemQueue ++ added)
    (stack : middle.withdrawalStack <+: after.withdrawalStack)
    (received : ∀ id, receivedBy after.logs id = receivedBy middle.logs id)
    (exceeded : ∀ id, exceededBy after.logs id = exceededBy middle.logs id) :
    Traced manager (opened ++ added) after := by
  obtain ⟨pushed, stack⟩ := stack
  refine ⟨?_, ?_, ?_⟩
  · rw [queue, List.length_append, List.length_append, traced.length]
  · intro id request found
    rw [queue, ← stack, received, exceeded]
    by_cases inside : id < opened.length
    · rw [List.getElem?_append_left inside] at found
      obtain ⟨claimed, weight, present, path, receivedSum, exceededSum⟩ :=
        traced.walked id request found
      refine ⟨claimed, weight, ?_,
        path.mono fun _ _ _ piece => piece.grow, receivedSum, exceededSum⟩
      rw [List.getElem?_append_left (traced.length ▸ inside)]
      exact present
    · have outside := Nat.le_of_not_lt inside
      obtain ⟨receivedSame, exceededSame⟩ := traced.absent id outside
      refine ⟨request, 0, ?_, .refl request, receivedSame, exceededSame⟩
      rw [List.getElem?_append_right outside] at found
      rw [List.getElem?_append_right (traced.length ▸ outside),
        traced.length]
      exact found
  · intro id outside
    rw [List.length_append] at outside
    rw [received, exceeded]
    exact traced.absent id ((Nat.le_add_right _ _).trans outside)

theorem Schedule.traced (reachable : Reachable manager)
    (schedule : Schedule manager reports requests after) :
    Traced manager (manager.redeemQueue ++ requests) after := by
  induction schedule with
  | start =>
      refine ⟨by rw [List.append_nil], ?_, fun _ _ => ⟨rfl, rfl⟩⟩
      intro id request found
      rw [List.append_nil] at found
      exact ⟨request, 0, found, .refl request, rfl, rfl⟩
  | requestRedeem _ returned induction =>
      obtain ⟨-, -, -, -, height, maximum, -, -, -, rfl⟩ :=
        requestRedeem_eq_ok.mp returned
      rw [List.drop_left, ← List.append_assoc]
      refine induction.grow rfl List.prefix_rfl ?_ ?_
      · intro id
        simp [receivedBy, RedeemLog.receivedBy]
      · intro id
        simp [exceededBy, RedeemLog.exceededBy]
  | reportWithdraw _ returned induction =>
      obtain ⟨-, -, height, -, rfl⟩ := reportWithdraw_ok returned
      rw [← List.append_nil (_ ++ _)]
      refine induction.grow (List.append_nil _).symm
        (List.prefix_append _ _) ?_ ?_
      · intro id
        simp [receivedBy, RedeemLog.receivedBy]
      · intro id
        simp [exceededBy, RedeemLog.exceededBy]
  | claimRedeemRequests earlier returned induction =>
      have geometry := Geometry.of_reachable
        (Relation.ReflTransGen.trans reachable earlier.run)
      refine (claimRedeemRequests_induction (motive := fun next =>
        Geometry next ∧ Traced manager _ next) ?_ ⟨geometry, induction⟩
        returned).2
      rintro call world worldAfter middle after requestId eventId eventCount _
        ⟨geometry, traced⟩ run
      exact ⟨geometry.claim run,
        traced.claim (run.claims geometry eventCount)⟩
  | pullExceedingEth _ returned induction =>
      obtain ⟨-, -, rfl⟩ := pullExceedingEth_ok returned
      exact ⟨induction.length, induction.walked, induction.absent⟩

end Schedule

/-- The claim payments, as their recipients saw them. -/
def sentPayments (transfers : List EthTransfer) : List (Address × Nat) :=
  transfers.filterMap fun
    | .claimPayment recipient amount => some (recipient, amount)
    | .exceedingPull _ => none

/-- The claim payments, as they were reported. -/
def reportedPayments (logs : List RedeemLog) : List (Address × Nat) :=
  logs.filterMap fun
    | .claimedRedeemRequest _ recipient ethAmount _ _ =>
      some (recipient, ethAmount)
    | _ => none

theorem claimRedeemRequest_payments {depth : Nat}
    {manager after : RedeemManager} {params final : ClaimParameters}
    (returned : claimRedeemRequest depth manager params =
      .ok (after, final)) :
    reportedPayments after.logs = reportedPayments manager.logs ∧
      after.transfers = manager.transfers := by
  obtain ⟨-, -, -, -, -, -, -, -, transfers⟩ :=
    claimRedeemRequest_frame returned
  obtain ⟨matched, same, saving⟩ :=
    claimRedeemRequest_induction
      (motive := fun next _ =>
        reportedPayments next.logs = reportedPayments manager.logs)
      (by
        intro next nextParams same _ _ _
        rw [← same]
        simp [afterPiece, reportedPayments, pieceLog])
      (fun _ _ _ same _ _ _ => same) rfl returned
  obtain ⟨stored, -, rfl⟩ := saveRedeemRequest_ok saving
  exact ⟨same, transfers⟩

/-- What is reported as paid is what was sent. -/
theorem payments_reported {manager : RedeemManager}
    (reachable : Reachable manager) :
    sentPayments manager.transfers = reportedPayments manager.logs := by
  induction reachable with
  | refl => rfl
  | tail _ step induction =>
      refine step_preserves (motive := fun next =>
        sentPayments next.transfers = reportedPayments next.logs)
        ?request ?withdraw ?claim ?pull induction step
      case request =>
        intro E river world worldAfter manager after amount id recipient
          initiator same returned
        obtain ⟨-, -, -, -, height, maximum, -, -, -, rfl⟩ :=
          requestRedeem_eq_ok.mp returned
        simpa [reportedPayments] using same
      case withdraw =>
        intro manager after amount value same returned
        obtain ⟨-, -, height, -, rfl⟩ := reportWithdraw_ok returned
        simpa [reportedPayments] using same
      case claim =>
        intro E river call world worldAfter manager after requestId eventId _
          _ same run
        obtain ⟨logs, transfers⟩ := claimRedeemRequest_payments run.claimed
        rw [run.transfers_eq, run.logs_eq, transfers, sentPayments,
          List.filterMap_append, reportedPayments, List.filterMap_append]
        exact congrArg (· ++ _) (same.trans logs.symm)
      case pull =>
        intro manager after max sent same returned
        obtain ⟨-, -, rfl⟩ := pullExceedingEth_ok returned
        simp only [sentPayments, List.filterMap_append]
        split <;> simpa [sentPayments] using same

/-- The request with this id is claimed to its end. -/
def FullyClaimed (manager : RedeemManager) (id : Nat) : Prop :=
  ∃ request, manager.redeemQueue[id]? = some request ∧ request.amount = 0

/-- Two schedules with the same reported withdrawals pay a request they both
claim to its end the same ether, and divert the same ether from it, however
they order, batch and cut the claims. -/
theorem claims_confluent {manager first second : RedeemManager}
    {reports : List (Nat × Nat)}
    {firstRequests secondRequests : List RedeemRequest}
    (reachable : Reachable manager)
    (schedule : Schedule manager reports firstRequests first)
    (other : Schedule manager reports secondRequests second) :
    (∀ id request,
      (manager.redeemQueue ++ firstRequests)[id]? = some request →
      (manager.redeemQueue ++ secondRequests)[id]? = some request →
      first.FullyClaimed id → second.FullyClaimed id →
      receivedBy first.logs id = receivedBy second.logs id ∧
        exceededBy first.logs id = exceededBy second.logs id) ∧
    sentPayments first.transfers = reportedPayments first.logs ∧
    sentPayments second.transfers = reportedPayments second.logs := by
  have reached : Reachable first :=
    Relation.ReflTransGen.trans reachable schedule.run
  have otherReached : Reachable second :=
    Relation.ReflTransGen.trans reachable other.run
  refine ⟨?_, payments_reported reached, payments_reported otherReached⟩
  intro id request found otherFound claimed otherClaimed
  have sameStack : first.withdrawalStack = second.withdrawalStack :=
    Except.ok.inj (schedule.stack.symm.trans other.stack)
  obtain ⟨left, weight, leftFound, path, received, exceeded⟩ :=
    (schedule.traced reachable).walked id request found
  obtain ⟨right, otherWeight, rightFound, otherPath, otherReceived,
    otherExceeded⟩ := (other.traced reachable).walked id request otherFound
  obtain ⟨done, doneFound, nothing⟩ := claimed
  obtain rfl : left = done := Option.some.inj (leftFound.symm.trans doneFound)
  obtain ⟨ended, endedFound, otherNothing⟩ := otherClaimed
  obtain rfl : right = ended :=
    Option.some.inj (rightFound.symm.trans endedFound)
  rw [← sameStack] at otherPath
  obtain ⟨same, -⟩ := path.unique
    (Geometry.of_reachable reached).consecutive.deterministic
    (terminal_of_claimed nothing) otherPath (terminal_of_claimed otherNothing)
  rw [received, exceeded, otherReceived, otherExceeded, same]
  exact ⟨rfl, rfl⟩

section Sample

/-- A request of 10 LsETH for at most 10 wei. -/
def requested : RedeemManager :=
  { fresh with
    redeemQueue := [{ amount := 10, maxRedeemableEth := 10,
                      recipient := alice, height := 0, initiator := alice }]
    redeemDemand := 10
    logs := [.setRedeemDemand 0 10, .requestedRedeem alice 0 10 10 0] }

theorem requested_reachable : Reachable requested := by
  have returned : requestRedeem acceptingCalls () fresh 10 alice alice =
      .ok (requested, (), 0) := by rfl
  exact .single (.requestRedeem returned)

/-- Each event claimed after it is reported. -/
def claimedTwice : Except Error RedeemManager := do
  let manager ← reportWithdraw requested 4 5
  let (manager, _, _) ← claimRedeemRequests acceptingCalls () manager [0] [0]
    true 0
  let manager ← reportWithdraw manager 6 6
  let (manager, _, _) ← claimRedeemRequests acceptingCalls () manager [0] [1]
    true 0
  return manager

/-- Both events claimed at once. -/
def claimedOnce : Except Error RedeemManager := do
  let manager ← reportWithdraw requested 4 5
  let manager ← reportWithdraw manager 6 6
  let (manager, _, _) ← claimRedeemRequests acceptingCalls () manager [0] [0]
    true 5
  return manager

theorem claimedTwice_schedule {manager : RedeemManager}
    (returned : claimedTwice = .ok manager) :
    Schedule requested [(4, 5), (6, 6)] [] manager := by
  simp only [claimedTwice, bind_eq_ok, pure_eq_ok, Prod.exists] at returned
  obtain ⟨_, report, _, _, _, claim, _, again, _, _, _, last, rfl⟩ := returned
  exact (((Schedule.start.reportWithdraw report).claimRedeemRequests
    claim).reportWithdraw again).claimRedeemRequests last

theorem claimedOnce_schedule {manager : RedeemManager}
    (returned : claimedOnce = .ok manager) :
    Schedule requested [(4, 5), (6, 6)] [] manager := by
  simp only [claimedOnce, bind_eq_ok, pure_eq_ok, Prod.exists] at returned
  obtain ⟨_, report, _, again, _, _, _, claim, rfl⟩ := returned
  exact ((Schedule.start.reportWithdraw report).reportWithdraw
    again).claimRedeemRequests claim

theorem claims_confluent_sample : ∃ first second,
    claimedTwice = .ok first ∧ claimedOnce = .ok second ∧
      first.transfers ≠ second.transfers ∧
      receivedBy first.logs 0 = receivedBy second.logs 0 ∧
      exceededBy first.logs 0 = exceededBy second.logs 0 := by
  have checked : returns claimedTwice (fun first =>
      first.redeemQueue.map RedeemRequest.amount = [0] ∧
        first.transfers.length = 2) = true := by decide +kernel
  have otherChecked : returns claimedOnce (fun second =>
      second.redeemQueue.map RedeemRequest.amount = [0] ∧
        second.transfers.length = 1) = true := by decide +kernel
  obtain ⟨first, returned, facts⟩ := returns_iff.mp checked
  obtain ⟨second, otherReturned, otherFacts⟩ := returns_iff.mp otherChecked
  obtain ⟨amounts, payments⟩ := of_decide_eq_true facts
  obtain ⟨otherAmounts, otherPayments⟩ := of_decide_eq_true otherFacts
  have claimed : ∀ manager : RedeemManager,
      manager.redeemQueue.map RedeemRequest.amount = [0] →
      manager.FullyClaimed 0 := by
    intro manager amounts
    obtain ⟨request, rest, queue, nothing, -⟩ := List.map_eq_cons_iff.mp amounts
    refine ⟨request, ?_, nothing⟩
    rw [queue]
    rfl
  obtain ⟨confluent, -, -⟩ := claims_confluent requested_reachable
    (claimedTwice_schedule returned) (claimedOnce_schedule otherReturned)
  refine ⟨first, second, returned, otherReturned, ?_,
    confluent 0 _ rfl rfl (claimed first amounts)
      (claimed second otherAmounts)⟩
  intro same
  rw [same, otherPayments] at payments
  exact absurd payments (by decide)

end Sample

end RedeemManager

end RiverProtocol
