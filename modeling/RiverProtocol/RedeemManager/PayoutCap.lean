import RiverProtocol.RedeemManager.Confluence

/-!
# The payout cap of a request

A request records the ether its LsETH is worth at its creation.  Each piece is
capped pro rata by what is left of that record, so a piece paid below its cap
leaves more for the later ones, and the payments of all pieces together never
pass the record.
-/

namespace RiverProtocol

open Checked Outcome Lists Segments

/-- The ether the pieces of a request pay. -/
def RedeemLog.settledBy (id : Nat) : RedeemLog → Nat
  | .satisfiedRedeemRequest redeemRequestId _ _ ethAmountSatisfied _ _ =>
    if redeemRequestId = id then ethAmountSatisfied else 0
  | _ => 0

namespace RedeemManager

/-- The `maxRedeemableEth` of every request at its creation, in order. -/
def recordedMaxima (logs : List RedeemLog) : List Nat :=
  logs.filterMap fun
    | .requestedRedeem _ _ _ maxRedeemableEth _ => some maxRedeemableEth
    | _ => none

def settledBy (logs : List RedeemLog) (id : Nat) : Nat :=
  (logs.map (RedeemLog.settledBy id)).sum

@[simp] theorem recordedMaxima_append (logs later : List RedeemLog) :
    recordedMaxima (logs ++ later) =
      recordedMaxima logs ++ recordedMaxima later :=
  List.filterMap_append

@[simp] theorem settledBy_append (logs later : List RedeemLog) (id : Nat) :
    settledBy (logs ++ later) id =
      settledBy logs id + settledBy later id := by
  simp [settledBy]

/-- What a reported piece satisfies: its ether is the event's ether for the
matched amount, the payments stay below the record, and they reach it when the
piece completes the request at its cap. -/
def PieceCapped (stack : List WithdrawalEvent) (before : List RedeemLog) :
    RedeemLog → Prop
  | .satisfiedRedeemRequest redeemRequestId withdrawalEventId matching paid
      remaining exceeding =>
    ∃ event recorded, stack[withdrawalEventId]? = some event ∧
      event.amount ≠ 0 ∧
      (recordedMaxima before)[redeemRequestId]? = some recorded ∧
      paid + exceeding = matching * event.withdrawnEth / event.amount ∧
      settledBy before redeemRequestId + paid ≤ recorded ∧
      (remaining = 0 → 0 < exceeding ∨
          recorded ≤ settledBy before redeemRequestId + (paid + exceeding) →
        settledBy before redeemRequestId + paid = recorded)
  | _ => True

variable {stack : List WithdrawalEvent} {manager : RedeemManager}

theorem PieceCapped.grow {later : List WithdrawalEvent}
    {before : List RedeemLog} {log : RedeemLog}
    (capped : PieceCapped stack before log) :
    PieceCapped (stack ++ later) before log := by
  cases log with
  | satisfiedRedeemRequest id eventId matching paid remaining exceeding =>
      obtain ⟨event, recorded, found, rest⟩ := capped
      refine ⟨event, recorded, ?_, rest⟩
      rw [List.getElem?_append_left (List.getElem?_eq_some_iff.mp found).1]
      exact found
  | _ => trivial

theorem cappedEth_of_matched {request : RedeemRequest}
    {event : WithdrawalEvent} (unclaimed : request.amount ≠ 0)
    (whole : request.amount - request.matched event = 0) :
    request.cappedEth event = request.maxRedeemableEth := by
  have matching : request.matched event = request.amount :=
    Nat.le_antisymm (request.matched_le event) (Nat.le_of_sub_eq_zero whole)
  rw [RedeemRequest.cappedEth, matching, prorated]
  exact Nat.mul_div_cancel_left _ (Nat.pos_of_ne_zero unclaimed)

theorem pieceCapped_pieceLog {before : List RedeemLog} {recorded : Nat}
    {params : ClaimParameters}
    (found : stack[params.withdrawalEventId]? = some params.withdrawalEvent)
    (nonzero : params.withdrawalEvent.amount ≠ 0)
    (unclaimed : params.redeemRequest.amount ≠ 0)
    (record : (recordedMaxima before)[params.redeemRequestId]? =
      some recorded)
    (left : params.redeemRequest.maxRedeemableEth +
      settledBy before params.redeemRequestId = recorded) :
    PieceCapped stack before (pieceLog params) := by
  have shared := params.redeemRequest.paidEth_add_exceedingEth
    params.withdrawalEvent
  have below := params.redeemRequest.paidEth_le params.withdrawalEvent
  refine ⟨params.withdrawalEvent, recorded, found, nonzero, record, shared,
    by omega, fun completed binds => ?_⟩
  have whole := cappedEth_of_matched unclaimed completed
  have reached : params.redeemRequest.maxRedeemableEth ≤
      params.redeemRequest.matchedEth params.withdrawalEvent := by
    rcases binds with exceeds | covers
    · rw [RedeemRequest.exceedingEth, whole] at exceeds
      omega
    · rw [shared] at covers
      omega
  have paid : params.redeemRequest.paidEth params.withdrawalEvent =
      params.redeemRequest.maxRedeemableEth := by
    rw [RedeemRequest.paidEth, whole, Nat.min_eq_right reached]
  omega

structure Capped (manager : RedeemManager) : Prop where
  length : (recordedMaxima manager.logs).length = manager.redeemQueue.length
  remaining : ∀ id request, manager.redeemQueue[id]? = some request →
    (recordedMaxima manager.logs)[id]? =
      some (request.maxRedeemableEth + receivedBy manager.logs id)
  settled : ∀ id, settledBy manager.logs id = receivedBy manager.logs id
  absent : ∀ id, manager.redeemQueue.length ≤ id →
    receivedBy manager.logs id = 0
  pieces : EachAfter (PieceCapped manager.withdrawalStack) manager.logs

/-- A running claim has taken from the request what its pieces paid. -/
structure Settling (manager : RedeemManager) (request : RedeemRequest)
    (id : Nat) (next : RedeemManager) (params : ClaimParameters) : Prop where
  requestId : params.redeemRequestId = id
  stack : next.withdrawalStack = manager.withdrawalStack
  queue : next.redeemQueue = manager.redeemQueue
  eventFound : manager.withdrawalStack[params.withdrawalEventId]? =
    some params.withdrawalEvent
  maximum : params.redeemRequest.maxRedeemableEth + params.ethAmount =
    request.maxRedeemableEth
  recorded : recordedMaxima next.logs = recordedMaxima manager.logs
  received : ∀ other, receivedBy next.logs other =
    receivedBy manager.logs other
  settled : ∀ other, settledBy next.logs other =
    settledBy manager.logs other + if id = other then params.ethAmount else 0
  pieces : EachAfter (PieceCapped manager.withdrawalStack) next.logs

section Claim

variable {after next : RedeemManager} {request : RedeemRequest} {id : Nat}
  {params : ClaimParameters}

theorem Settling.piece (capped : Capped manager)
    (found : manager.redeemQueue[id]? = some request)
    (settling : Settling manager request id next params)
    (nonzero : params.withdrawalEvent.amount ≠ 0)
    (unclaimed : params.redeemRequest.amount ≠ 0) :
    Settling manager request id (next.afterPiece params)
      params.afterPiece := by
  obtain ⟨rfl, stack, queue, eventFound, maximum, recorded, received, settled,
    pieces⟩ := settling
  have below := params.redeemRequest.paidEth_le params.withdrawalEvent
  have before := settled params.redeemRequestId
  have same := capped.settled params.redeemRequestId
  rw [if_pos rfl] at before
  refine ⟨rfl, stack, queue, eventFound, ?_, ?_, ?_, ?_, ?_⟩
  · simp only [ClaimParameters.afterPiece, RedeemRequest.afterMatch]
    omega
  · rw [RedeemManager.afterPiece, recordedMaxima_append, recorded]
    exact List.append_nil _
  · intro other
    simp only [RedeemManager.afterPiece, receivedBy_append]
    rw [received other]
    rfl
  · intro other
    simp only [RedeemManager.afterPiece, settledBy_append,
      ClaimParameters.afterPiece]
    rw [settled other]
    by_cases named : params.redeemRequestId = other <;>
      simp [settledBy, RedeemLog.settledBy, pieceLog, named, Nat.add_assoc]
  · refine pieces.concat (pieceCapped_pieceLog eventFound nonzero unclaimed
      ?_ rfl)
    rw [recorded, capped.remaining _ request found, before, same, ← maximum]
    congr 1
    omega

theorem Capped.of_claim {E : Type} {river : RiverCalls E} {call : ClaimCall}
    {world worldAfter : E} {redeemRequestId withdrawalEventId : Nat}
    (capped : Capped manager)
    (run : ClaimRun river call world manager redeemRequestId
      withdrawalEventId worldAfter after) : Capped after := by
  obtain ⟨next, settling, saving⟩ :=
    claimRedeemRequest_induction
      (motive := Settling manager run.request redeemRequestId)
      (fun _ _ settling _ nonzero unclaimed =>
        settling.piece capped run.requestFound nonzero unclaimed)
      (fun _ _ _ settling _ _ found =>
        { settling with eventFound := settling.stack ▸ found })
      ⟨rfl, rfl, rfl, run.eventFound, rfl, rfl, fun _ => rfl,
        fun _ => by simp [initialParameters], capped.pieces⟩
      run.claimed
  obtain ⟨stored, -, saved⟩ := saveRedeemRequest_ok saving
  have inside := (List.getElem?_eq_some_iff.mp run.requestFound).1
  have record := capped.remaining redeemRequestId run.request run.requestFound
  have queue := run.queue_set
  have logs : after.logs = next.logs ++
      [.claimedRedeemRequest redeemRequestId
        run.params.redeemRequest.recipient run.params.ethAmount
        run.params.lsETHAmount run.params.redeemRequest.amount] := by
    rw [run.logs_eq, saved]
  have recorded : recordedMaxima after.logs = recordedMaxima manager.logs := by
    rw [logs, recordedMaxima_append, settling.recorded]
    exact List.append_nil _
  have received : ∀ other, receivedBy after.logs other =
      receivedBy manager.logs other +
        if redeemRequestId = other then run.params.ethAmount else 0 := by
    intro other
    rw [logs, receivedBy_append, settling.received]
    simp [receivedBy, RedeemLog.receivedBy]
  refine ⟨?_, ?_, ?_, ?_, ?_⟩
  · rw [recorded, queue, List.length_set]
    exact capped.length
  · intro other request stored
    rw [queue] at stored
    rw [recorded, received]
    rcases getElem?_set_cases stored with ⟨different, kept⟩ | ⟨rfl, rfl⟩
    · rw [if_neg (Ne.symm different), Nat.add_zero]
      exact capped.remaining other request kept
    · rw [if_pos rfl, record, ← settling.maximum]
      simp only [savedRequest, Option.some.injEq]
      omega
  · intro other
    rw [received, logs, settledBy_append, settling.settled, capped.settled]
    rfl
  · intro other outside
    rw [queue, List.length_set] at outside
    have different : redeemRequestId ≠ other := by omega
    rw [received, if_neg different, capped.absent other outside]
  · rw [run.stack_same, logs]
    exact settling.pieces.concat trivial

end Claim

namespace Capped

variable {after : RedeemManager}

theorem fresh : Capped RedeemManager.fresh where
  length := rfl
  remaining := nofun
  settled := fun _ => rfl
  absent := fun _ _ => rfl
  pieces := eachAfter_nil

theorem of_request {request : RedeemRequest} {reported : List RedeemLog}
    (capped : Capped manager)
    (queue : after.redeemQueue = manager.redeemQueue ++ [request])
    (stack : after.withdrawalStack = manager.withdrawalStack)
    (logs : after.logs = manager.logs ++ reported)
    (records : recordedMaxima reported = [request.maxRedeemableEth])
    (settles : ∀ id, settledBy reported id = 0)
    (pays : ∀ id, receivedBy reported id = 0)
    (free : ∀ log ∈ reported, ∀ before,
      PieceCapped manager.withdrawalStack before log) : Capped after := by
  have received : ∀ id, receivedBy after.logs id =
      receivedBy manager.logs id := by
    intro id
    rw [logs, receivedBy_append, pays, Nat.add_zero]
  refine ⟨?_, ?_, ?_, ?_, ?_⟩
  · rw [logs, recordedMaxima_append, records, queue, List.length_append,
      List.length_append, capped.length]
    rfl
  · intro id stored found
    rw [queue] at found
    rw [received, logs, recordedMaxima_append, records]
    rcases getElem?_concat_cases found with kept | ⟨rfl, rfl⟩
    · have recorded := capped.remaining id stored kept
      rw [List.getElem?_append_left
        (List.getElem?_eq_some_iff.mp recorded).1]
      exact recorded
    · rw [capped.absent _ (Nat.le_refl _), ← capped.length]
      simp
  · intro id
    rw [received, logs, settledBy_append, settles, capped.settled]
    rfl
  · intro id outside
    rw [queue, List.length_append] at outside
    rw [received]
    exact capped.absent id (by omega)
  · rw [stack, logs]
    exact capped.pieces.append free

theorem of_event {event : WithdrawalEvent} {reported : List RedeemLog}
    (capped : Capped manager)
    (queue : after.redeemQueue = manager.redeemQueue)
    (stack : after.withdrawalStack = manager.withdrawalStack ++ [event])
    (logs : after.logs = manager.logs ++ reported)
    (records : recordedMaxima reported = [])
    (settles : ∀ id, settledBy reported id = 0)
    (pays : ∀ id, receivedBy reported id = 0)
    (free : ∀ log ∈ reported, ∀ before,
      PieceCapped after.withdrawalStack before log) : Capped after := by
  have received : ∀ id, receivedBy after.logs id =
      receivedBy manager.logs id := by
    intro id
    rw [logs, receivedBy_append, pays, Nat.add_zero]
  have recorded : recordedMaxima after.logs = recordedMaxima manager.logs := by
    rw [logs, recordedMaxima_append, records, List.append_nil]
  refine ⟨?_, ?_, ?_, ?_, ?_⟩
  · rw [recorded, queue]
    exact capped.length
  · intro id stored found
    rw [queue] at found
    rw [received, recorded]
    exact capped.remaining id stored found
  · intro id
    rw [received, logs, settledBy_append, settles, capped.settled]
    rfl
  · intro id outside
    rw [queue] at outside
    rw [received]
    exact capped.absent id outside
  · rw [logs]
    refine EachAfter.append ?_ free
    rw [stack]
    exact capped.pieces.imp fun _ _ capped => capped.grow

theorem step (capped : Capped manager) (step : Step manager after) :
    Capped after := by
  refine step_preserves (motive := Capped) ?request ?withdraw ?claim ?pull
    capped step
  case request =>
    intro E river world worldAfter manager after amount id recipient
      initiator capped returned
    obtain ⟨-, -, -, -, height, maximum, -, -, -, rfl⟩ :=
      requestRedeem_eq_ok.mp returned
    exact capped.of_request rfl rfl (List.append_assoc _ _ _) rfl
      (fun _ => rfl) (fun _ => rfl) (by simp [PieceCapped])
  case withdraw =>
    intro manager after amount value capped returned
    obtain ⟨-, -, height, -, rfl⟩ := reportWithdraw_ok returned
    exact capped.of_event rfl rfl (List.append_assoc _ _ _) rfl
      (fun _ => rfl) (fun _ => rfl) (by simp [PieceCapped])
  case claim =>
    intro E river call world worldAfter manager after requestId eventId _ _
      capped run
    exact capped.of_claim run
  case pull =>
    intro manager after max sent capped returned
    obtain ⟨-, -, rfl⟩ := pullExceedingEth_ok returned
    exact { capped with }

theorem of_reachable (reachable : Reachable manager) : Capped manager := by
  induction reachable with
  | refl => exact fresh
  | tail _ next induction => exact induction.step next

end Capped

theorem panic_ne_underflow (reason : Panic) (other : reason ≠ .underflow) :
    (HasPanic.panic reason : Error) ≠ .panic .underflow := by
  intro same
  exact other (Error.panic.inj same)

theorem capPayment_ne_underflow {buffered ethAmount maximum : Nat} :
    capPayment buffered ethAmount maximum ≠ .error (.panic .underflow) := by
  have overflow := panic_ne_underflow .overflow (by decide)
  unfold capPayment
  split
  · simp only [ne_eq, bind_eq_error, uadd_eq_error, pure_eq_error, overflow,
      and_false, exists_false, or_false, not_false_eq_true]
  · intro failed
    cases failed

theorem matchWithdrawalEvent_ne_underflow {params : ClaimParameters}
    (reached : params.redeemRequest.height ≤
      params.withdrawalEvent.endPosition) :
    matchWithdrawalEvent manager params ≠ .error (.panic .underflow) := by
  have overflow := panic_ne_underflow .overflow nofun
  have division := panic_ne_underflow .divisionByZero nofun
  intro failed
  simp only [matchWithdrawalEvent, bind_eq_error, uadd_eq_error,
    usub_eq_error, umul_eq_error, udiv_eq_error, pure_eq_error, overflow,
    division, capPayment_ne_underflow, and_false, false_or, exists_false,
    or_false, uadd_eq_ok, usub_eq_ok, umul_eq_ok, udiv_eq_ok] at failed
  obtain ⟨_, ⟨-, rfl⟩, ⟨outside, -⟩ | ⟨remaining, -, _, -, _, -, _,
    ⟨-, rfl⟩, cap, ⟨-, rfl⟩, paid, capped, _, -,
    ⟨lacks, -⟩ | ⟨_, -, lacks, -⟩⟩⟩ := failed
  · exact absurd reached (Nat.not_le.mpr outside)
  · rw [LibUint256.min_eq] at lacks
    omega
  · obtain ⟨payment, -, -⟩ := capPayment_ok capped
    have within : LibUint256.min params.redeemRequest.amount remaining ≤
        params.redeemRequest.amount := by
      rw [LibUint256.min_eq]
      exact Nat.min_le_left _ _
    have below := prorated_le_value params.redeemRequest.maxRedeemableEth
      within
    rw [payment] at lacks
    exact absurd lacks (Nat.not_lt.mpr ((Nat.min_le_right _ _).trans below))

/-- The next event of a recursion starts where the request stands. -/
theorem claimRedeemRequest_ne_underflow (geometry : Geometry manager)
    {depth : Nat} {next : RedeemManager} {params : ClaimParameters}
    (stack : next.withdrawalStack = manager.withdrawalStack)
    (countSmall : params.withdrawalEventCount < uint32Limit)
    (found : manager.withdrawalStack[params.withdrawalEventId]? =
      some params.withdrawalEvent)
    (reached : params.redeemRequest.height ≤
      params.withdrawalEvent.endPosition) :
    claimRedeemRequest depth next params ≠ .error (.panic .underflow) := by
  have saves : ∀ (matched : RedeemManager) (saving : ClaimParameters),
      saveRedeemRequest matched saving ≠ .error (.panic .underflow) := by
    intro matched saving failed
    simp only [saveRedeemRequest, bind_eq_error, fetch_eq_error,
      pure_eq_error, Error.panic.injEq, reduceCtorEq, and_false,
      exists_false, or_false] at failed
  induction depth generalizing next params with
  | zero =>
      simp only [claimRedeemRequest, ne_eq, bind_eq_error, saves,
        matchWithdrawalEvent_ne_underflow reached, pure_eq_error, and_false,
        exists_false, or_false, not_false_eq_true]
  | succ depth induction =>
      intro failed
      simp only [claimRedeemRequest, bind_eq_error,
        matchWithdrawalEvent_ne_underflow reached, false_or, Prod.exists]
        at failed
      obtain ⟨matched, continued, matching, failed⟩ := failed
      obtain ⟨-, -, -, rfl, rfl⟩ := matchWithdrawalEvent_ok matching
      split at failed
      · rename_i further
        simp only [bind_eq_error, fetch_eq_error, fetch_eq_ok,
          Error.panic.injEq, reduceCtorEq, and_false, false_or] at failed
        obtain ⟨event, eventFound, failed⟩ := failed
        obtain ⟨remains, counted⟩ := further
        have nextFound := stack ▸ eventFound
        have touches := geometry.event_next (counted.trans countSmall) found
          nextFound
        have finished : params.afterPiece.redeemRequest.height =
            params.withdrawalEvent.endPosition := by
          simp only [ClaimParameters.afterPiece, RedeemRequest.afterMatch,
            RedeemRequest.matched] at remains ⊢
          omega
        refine absurd failed (induction stack countSmall nextFound ?_)
        change params.afterPiece.redeemRequest.height ≤ event.endPosition
        rw [finished, ← touches]
        exact Nat.le_add_right _ _
      · simp only [bind_eq_error, saves, pure_eq_error, and_false,
          exists_false, or_false] at failed

theorem claimOne_ne_underflow {E : Type} {river : RiverCalls E}
    {call : ClaimCall} {world : E} {redeemRequestId withdrawalEventId : Nat}
    (geometry : Geometry manager)
    (eventCount : call.withdrawalEventCount < uint32Limit) :
    claimOne river call world manager redeemRequestId withdrawalEventId ≠
      .error (.panic .underflow) := by
  intro failed
  rcases claimOne_error failed with rejected | ⟨request, event, -, eventFound,
    -, -, startsBeforeEnd, -, failing⟩
  · cases rejected
  · rcases failing with claiming | ⟨saved, params, -, paying⟩
    · exact claimRedeemRequest_ne_underflow geometry rfl eventCount eventFound
        (Nat.le_of_lt startsBeforeEnd) claiming
    · simp only [payRecipient, bind_eq_error, require_eq_error, reduceCtorEq,
        and_false, false_or] at paying
      obtain ⟨-, -, paying⟩ := paying
      split at paying <;> simp only [pure_eq_error, Except.error.injEq,
        reduceCtorEq] at paying

theorem claimAll_ne_underflow {E : Type} {river : RiverCalls E}
    {call : ClaimCall} (eventCount : call.withdrawalEventCount < uint32Limit)
    {pairs : List (Nat × Nat)} {world : E} (geometry : Geometry manager) :
    claimAll river call pairs world manager ≠ .error (.panic .underflow) := by
  intro failed
  obtain ⟨reached, worldReached, requestId, eventId, reachedGeometry, first⟩ :=
    claimAll_error (motive := Geometry)
      (fun geometry run => geometry.claim run) geometry failed
  exact claimOne_ne_underflow reachedGeometry eventCount first

/-- In every reachable state each request has received at most its record, the
stored maximum is the record less the payments, every reported piece shares
out the ether its event holds for the matched LsETH, and a request completed at
its cap has received exactly its record. -/
theorem payout_capped (reachable : Reachable manager) :
    (recordedMaxima manager.logs).length = manager.redeemQueue.length ∧
    (∀ id request, manager.redeemQueue[id]? = some request →
      ∃ recorded, (recordedMaxima manager.logs)[id]? = some recorded ∧
        receivedBy manager.logs id ≤ recorded ∧
        request.maxRedeemableEth = recorded - receivedBy manager.logs id) ∧
    (∀ id, settledBy manager.logs id = receivedBy manager.logs id) ∧
    (∀ before id eventId matching paid remaining exceeding later,
      manager.logs = before ++ .satisfiedRedeemRequest id eventId matching
        paid remaining exceeding :: later →
      ∃ event recorded, manager.withdrawalStack[eventId]? = some event ∧
        (recordedMaxima manager.logs)[id]? = some recorded ∧
        event.amount ≠ 0 ∧
        paid + exceeding = matching * event.withdrawnEth / event.amount ∧
        (remaining = 0 → 0 < exceeding ∨
            recorded ≤ settledBy before id + (paid + exceeding) →
          receivedBy manager.logs id = recorded)) ∧
    sentPayments manager.transfers = reportedPayments manager.logs ∧
    manager.bufferedExceedingEth + pulledOut manager.transfers =
      divertedTotal manager.logs ∧
    ∀ {E : Type} (river : RiverCalls E) (world : E)
      (redeemRequestIds withdrawalEventIds : List Nat)
      (skipAlreadyClaimed : Bool) (depth : Nat),
      claimRedeemRequests river world manager redeemRequestIds
        withdrawalEventIds skipAlreadyClaimed depth ≠
        .error (.panic .underflow) := by
  have capped := Capped.of_reachable reachable
  have geometry := Geometry.of_reachable reachable
  refine ⟨capped.length, ?_, capped.settled, ?_, payments_reported reachable,
    (Solvent.of_reachable reachable).buffer, ?_⟩
  · intro id request found
    exact ⟨_, capped.remaining id request found, Nat.le_add_left _ _,
      (Nat.add_sub_cancel _ _).symm⟩
  · intro before id eventId matching paid remaining exceeding later logs
    obtain ⟨event, recorded, found, nonzero, record, shared, below, binds⟩ :=
      capped.pieces before _ later logs
    have inside := (List.getElem?_eq_some_iff.mp record).1
    have recordAfter : (recordedMaxima manager.logs)[id]? =
        some recorded := by
      rw [logs, recordedMaxima_append, List.getElem?_append_left inside]
      exact record
    refine ⟨event, recorded, found, recordAfter, nonzero, shared, ?_⟩
    intro completed atCap
    have reached := binds completed atCap
    have settled : settledBy before id + paid ≤
        receivedBy manager.logs id := by
      rw [← capped.settled, logs, settledBy_append]
      simp [settledBy, RedeemLog.settledBy]
    have queued : id < manager.redeemQueue.length := by
      rw [← capped.length]
      exact (List.getElem?_eq_some_iff.mp recordAfter).1
    have total := capped.remaining id _ (List.getElem?_eq_getElem queued)
    have limit := Option.some.inj (recordAfter.symm.trans total)
    omega
  · intro E river world requestIds eventIds skip depth failed
    simp only [claimRedeemRequests, bind_eq_error, require_eq_error,
      reduceCtorEq, and_false, false_or] at failed
    obtain ⟨-, -, loop⟩ := failed
    exact claimAll_ne_underflow (toUint32_lt _) geometry loop

/-- The rest of the partly claimed request is withdrawn above its cap and
claimed. -/
def completedAtCap : Except Error RedeemManager := do
  let manager ← reportWithdraw partlyClaimed 6 7
  let (manager, _, _) ← claimRedeemRequests acceptingCalls () manager [0] [1]
    true 0
  return manager

theorem payout_capped_sample : ∃ manager, completedAtCap = .ok manager ∧
    receivedBy manager.logs 0 = 10 := by
  have checked : returns completedAtCap (fun manager => manager.logs =
      (partlyClaimed.logs ++
        [.setRedeemDemand 6 0, .reportedWithdrawal 4 6 7 1]) ++
      .satisfiedRedeemRequest 0 1 6 6 0 1 ::
        [.claimedRedeemRequest 0 alice 6 6 0]) = true := by
    decide +kernel
  obtain ⟨manager, returned, passed⟩ := returns_iff.mp checked
  have logs := of_decide_eq_true passed
  have reachable : Reachable manager := by
    simp only [completedAtCap, bind_eq_ok, pure_eq_ok, Prod.exists]
      at returned
    obtain ⟨_, report, _, _, _, claim, rfl⟩ := returned
    exact (partlyClaimed_reachable.tail (.reportWithdraw report)).tail
      (.claimRedeemRequests claim)
  obtain ⟨-, -, -, pieces, -⟩ := payout_capped reachable
  obtain ⟨event, recorded, -, record, -, -, atCap⟩ :=
    pieces _ 0 1 6 6 0 1 _ logs
  have ten : (recordedMaxima manager.logs)[0]? = some 10 := by
    rw [logs]
    decide
  rw [Option.some.inj (ten.symm.trans record)]
  exact ⟨manager, returned, atCap rfl (.inl (by decide))⟩

end RedeemManager

end RiverProtocol
