import RiverProtocol.RedeemManager.Steps

/-!
# Geometry of the queue and the stack

Requests and withdrawal events are laid on one line of LsETH.  A request ends
where the requested amounts up to it add up to, whatever has been claimed of
it; an event starts where the amounts of the earlier events add up to.  Ids
are 32-bit words, so both are stated for the ids that can be named.
-/

namespace RiverProtocol

open Checked Outcome Lists Segments

namespace RedeemManager

/-- The LsETH amounts of all requests made so far, in order. -/
def requestedAmounts (logs : List RedeemLog) : List Nat :=
  logs.filterMap fun
    | .requestedRedeem _ _ amount _ _ => some amount
    | _ => none

/-- The LsETH amounts of the withdrawal events. -/
def eventAmounts (manager : RedeemManager) : List Nat :=
  manager.withdrawalStack.map WithdrawalEvent.amount

/-- The end of the last request. -/
def queueEnd (manager : RedeemManager) : Nat :=
  (manager.redeemQueue.getLast?.map RedeemRequest.endPosition).getD 0

/-- The end of the last withdrawal event. -/
def stackEnd (manager : RedeemManager) : Nat :=
  (manager.withdrawalStack.getLast?.map WithdrawalEvent.endPosition).getD 0

@[simp] theorem requestedAmounts_append (logs later : List RedeemLog) :
    requestedAmounts (logs ++ later) =
      requestedAmounts logs ++ requestedAmounts later :=
  List.filterMap_append

structure Geometry (manager : RedeemManager) : Prop where
  requested_length : (requestedAmounts manager.logs).length =
    manager.redeemQueue.length
  request_end : ∀ id request, id < uint32Limit →
    manager.redeemQueue[id]? = some request →
    request.endPosition =
      ((requestedAmounts manager.logs).take (id + 1)).sum
  request_start : ∀ id request, id < uint32Limit →
    manager.redeemQueue[id]? = some request →
    ((requestedAmounts manager.logs).take id).sum ≤ request.height
  event_start : ∀ id event, id < uint32Limit →
    manager.withdrawalStack[id]? = some event →
    event.height = (manager.eventAmounts.take id).sum
  demand : manager.redeemDemand + manager.eventAmounts.sum =
    (requestedAmounts manager.logs).sum

/-- A claim moves the start of its request, keeps its end and reports no new
request. -/
theorem claimRedeemRequest_request {depth : Nat}
    {manager after : RedeemManager} {params final : ClaimParameters}
    (returned : claimRedeemRequest depth manager params =
      .ok (after, final)) :
    final.redeemRequest.endPosition = params.redeemRequest.endPosition ∧
      params.redeemRequest.height ≤ final.redeemRequest.height ∧
      requestedAmounts after.logs = requestedAmounts manager.logs := by
  obtain ⟨matched, ⟨endEq, startLe, logsEq⟩, saving⟩ :=
    claimRedeemRequest_induction
      (motive := fun next nextParams =>
        nextParams.redeemRequest.endPosition =
          params.redeemRequest.endPosition ∧
        params.redeemRequest.height ≤ nextParams.redeemRequest.height ∧
        requestedAmounts next.logs = requestedAmounts manager.logs)
      (by
        rintro next nextParams ⟨endEq, startLe, logsEq⟩ _ _ _
        refine ⟨?_, ?_, ?_⟩
        · exact (RedeemRequest.afterMatch_endPosition _ _).trans endEq
        · exact startLe.trans (Nat.le_add_right _ _)
        · simpa [afterPiece, requestedAmounts, pieceLog] using logsEq)
      (fun _ _ _ holds _ _ _ => holds) ⟨rfl, Nat.le_refl _, rfl⟩ returned
  obtain ⟨stored, -, rfl⟩ := saveRedeemRequest_ok saving
  exact ⟨endEq, startLe, logsEq⟩

/-- What a claim changes, as seen by the two stacks. -/
theorem ClaimRun.moves_start {E : Type} {river : RiverCalls E}
    {call : ClaimCall} {world worldAfter : E}
    {manager after : RedeemManager}
    {redeemRequestId withdrawalEventId : Nat}
    (run : ClaimRun river call world manager redeemRequestId
      withdrawalEventId worldAfter after) :
    ∃ claimed : RedeemRequest,
      after.redeemQueue = manager.redeemQueue.set redeemRequestId claimed ∧
      claimed.endPosition = run.request.endPosition ∧
      run.request.height ≤ claimed.height ∧
      after.withdrawalStack = manager.withdrawalStack ∧
      after.redeemDemand = manager.redeemDemand ∧
      requestedAmounts after.logs = requestedAmounts manager.logs := by
  obtain ⟨endEq, startLe, logsEq⟩ := claimRedeemRequest_request run.claimed
  refine ⟨savedRequest run.request run.params, run.queue_set, endEq, startLe,
    run.stack_same, run.demand_same, ?_⟩
  rw [run.logs_eq, requestedAmounts_append, logsEq]
  simp [requestedAmounts]

theorem nextHeight_ok {positions : List (Nat × Nat)} {id height : Nat}
    (returned : nextHeight positions id = .ok height) :
    (id = 0 ∧ height = 0) ∨
      ∃ start length, id ≠ 0 ∧
        positions[id - 1]? = some (start, length) ∧
        height = start + length := by
  unfold nextHeight at returned
  split at returned
  · rename_i nonzero
    simp only [bind_eq_ok, fetch_eq_ok, uadd_eq_ok, Prod.exists] at returned
    obtain ⟨start, length, found, -, rfl⟩ := returned
    exact .inr ⟨start, length, nonzero, found, rfl⟩
  · rename_i zero
    simp only [pure_eq_ok] at returned
    exact .inl ⟨by omega, returned.symm⟩

namespace Geometry

theorem fresh : Geometry RedeemManager.fresh where
  requested_length := rfl
  request_end := by simp [RedeemManager.fresh]
  request_start := by simp [RedeemManager.fresh]
  event_start := by simp [RedeemManager.fresh]
  demand := rfl

/-- The next request starts where the requested amounts add up to. -/
theorem next_request {manager : RedeemManager} {height : Nat}
    (geometry : Geometry manager)
    (few : manager.redeemQueue.length < uint32Limit)
    (returned : nextHeight (manager.redeemQueue.map RedeemRequest.position)
      (toUint32 manager.redeemQueue.length) = .ok height) :
    height = (requestedAmounts manager.logs).sum := by
  rw [toUint32_of_lt few] at returned
  rcases nextHeight_ok returned with
    ⟨empty, rfl⟩ | ⟨start, length, nonzero, found, rfl⟩
  · have none : requestedAmounts manager.logs = [] :=
      List.eq_nil_of_length_eq_zero (geometry.requested_length.trans empty)
    rw [none]
    rfl
  · simp only [List.getElem?_map, Option.map_eq_some_iff] at found
    obtain ⟨request, requestFound, position⟩ := found
    have ends := geometry.request_end _ request (by omega) requestFound
    rw [Nat.sub_add_cancel (Nat.pos_of_ne_zero nonzero),
      ← geometry.requested_length, List.take_length] at ends
    simp only [RedeemRequest.position, Prod.mk.injEq] at position
    rw [← ends, ← position.1, ← position.2]
    rfl

/-- The next event starts where the event amounts add up to. -/
theorem next_event {manager : RedeemManager} {height : Nat}
    (geometry : Geometry manager)
    (few : manager.withdrawalStack.length < uint32Limit)
    (returned : nextHeight
      (manager.withdrawalStack.map WithdrawalEvent.position)
      (toUint32 manager.withdrawalStack.length) = .ok height) :
    height = manager.eventAmounts.sum := by
  rw [toUint32_of_lt few] at returned
  rcases nextHeight_ok returned with
    ⟨empty, rfl⟩ | ⟨start, length, nonzero, found, rfl⟩
  · simp [eventAmounts, List.eq_nil_of_length_eq_zero empty]
  · simp only [List.getElem?_map, Option.map_eq_some_iff] at found
    obtain ⟨event, eventFound, position⟩ := found
    have starts := geometry.event_start _ event (by omega) eventFound
    simp only [WithdrawalEvent.position, Prod.mk.injEq] at position
    have total : manager.eventAmounts.sum =
        (manager.eventAmounts.take
          (manager.withdrawalStack.length - 1)).sum + event.amount := by
      have split := List.take_add_one (l := manager.eventAmounts)
        (i := manager.withdrawalStack.length - 1)
      rw [Nat.sub_add_cancel (Nat.pos_of_ne_zero nonzero),
        List.take_of_length_le (by simp [eventAmounts])] at split
      rw [split]
      simp [eventAmounts, eventFound]
    rw [total, ← starts, ← position.1, ← position.2]

section Preservation

variable {manager after : RedeemManager}

/-- A request pushed at the end of the queue. -/
theorem of_request {request : RedeemRequest} (geometry : Geometry manager)
    (queue : after.redeemQueue = manager.redeemQueue ++ [request])
    (stack : after.withdrawalStack = manager.withdrawalStack)
    (amounts : requestedAmounts after.logs =
      requestedAmounts manager.logs ++ [request.amount])
    (demand : after.redeemDemand = manager.redeemDemand + request.amount)
    (starts : manager.redeemQueue.length < uint32Limit →
      request.height = (requestedAmounts manager.logs).sum) :
    Geometry after := by
  have length := geometry.requested_length
  have lastIndex : (requestedAmounts manager.logs ++ [request.amount]).take
      manager.redeemQueue.length = requestedAmounts manager.logs := by
    rw [← length, List.take_left]
  constructor
  · rw [amounts, queue, List.length_append, List.length_append, length]
    rfl
  · intro id stored small found
    rw [queue] at found
    rw [amounts]
    rcases getElem?_concat_cases found with old | ⟨rfl, rfl⟩
    · have inside := (List.getElem?_eq_some_iff.mp old).1
      rw [List.take_append_of_le_length (by omega)]
      exact geometry.request_end id stored small old
    · rw [List.take_of_length_le (by simp [length]), List.sum_append,
        ← starts small]
      simp [RedeemRequest.endPosition]
  · intro id stored small found
    rw [queue] at found
    rw [amounts]
    rcases getElem?_concat_cases found with old | ⟨rfl, rfl⟩
    · have inside := (List.getElem?_eq_some_iff.mp old).1
      rw [List.take_append_of_le_length (by omega)]
      exact geometry.request_start id stored small old
    · rw [lastIndex, starts small]
  · intro id event small found
    rw [stack] at found
    rw [geometry.event_start id event small found, eventAmounts, eventAmounts,
      stack]
  · have total := geometry.demand
    rw [demand, amounts, List.sum_append, List.sum_singleton, ← total,
      eventAmounts, eventAmounts, stack]
    omega

/-- An event pushed on the stack. -/
theorem of_event {event : WithdrawalEvent} (geometry : Geometry manager)
    (queue : after.redeemQueue = manager.redeemQueue)
    (stack : after.withdrawalStack = manager.withdrawalStack ++ [event])
    (amounts : requestedAmounts after.logs = requestedAmounts manager.logs)
    (demand : after.redeemDemand + event.amount = manager.redeemDemand)
    (starts : manager.withdrawalStack.length < uint32Limit →
      event.height = manager.eventAmounts.sum) : Geometry after := by
  have grown : after.eventAmounts = manager.eventAmounts ++ [event.amount] := by
    simp [eventAmounts, stack]
  constructor
  · rw [amounts, queue, geometry.requested_length]
  · intro id stored small found
    rw [amounts]
    exact geometry.request_end id stored small (queue ▸ found)
  · intro id stored small found
    rw [amounts]
    exact geometry.request_start id stored small (queue ▸ found)
  · intro id stored small found
    rw [stack] at found
    rw [grown]
    rcases getElem?_concat_cases found with old | ⟨rfl, rfl⟩
    · have inside := (List.getElem?_eq_some_iff.mp old).1
      rw [List.take_append_of_le_length
        (by simpa [eventAmounts] using Nat.le_of_lt inside)]
      exact geometry.event_start id stored small old
    · rw [starts small, List.take_left' (by simp [eventAmounts])]
  · have total := geometry.demand
    rw [amounts, grown, List.sum_append, List.sum_singleton]
    omega

/-- A request whose start moved and whose end did not. -/
theorem of_claim {id : Nat} {request claimed : RedeemRequest}
    (geometry : Geometry manager)
    (stored : manager.redeemQueue[id]? = some request)
    (queue : after.redeemQueue = manager.redeemQueue.set id claimed)
    (stack : after.withdrawalStack = manager.withdrawalStack)
    (amounts : requestedAmounts after.logs = requestedAmounts manager.logs)
    (demand : after.redeemDemand = manager.redeemDemand)
    (sameEnd : claimed.endPosition = request.endPosition)
    (startMoves : request.height ≤ claimed.height) : Geometry after := by
  have events : after.eventAmounts = manager.eventAmounts := by
    rw [eventAmounts, eventAmounts, stack]
  constructor
  · rw [amounts, queue, List.length_set, geometry.requested_length]
  · intro position other small found
    rw [queue] at found
    rw [amounts]
    rcases getElem?_set_cases found with ⟨-, kept⟩ | ⟨rfl, rfl⟩
    · exact geometry.request_end position other small kept
    · rw [sameEnd]
      exact geometry.request_end _ request small stored
  · intro position other small found
    rw [queue] at found
    rw [amounts]
    rcases getElem?_set_cases found with ⟨-, kept⟩ | ⟨rfl, rfl⟩
    · exact geometry.request_start position other small kept
    · exact (geometry.request_start _ request small stored).trans startMoves
  · intro position event small found
    rw [events]
    exact geometry.event_start position event small (stack ▸ found)
  · rw [demand, events, amounts]
    exact geometry.demand

end Preservation

theorem claim {E : Type} {river : RiverCalls E} {call : ClaimCall}
    {world worldAfter : E} {manager after : RedeemManager}
    {redeemRequestId withdrawalEventId : Nat} (geometry : Geometry manager)
    (run : ClaimRun river call world manager redeemRequestId
      withdrawalEventId worldAfter after) : Geometry after := by
  obtain ⟨claimed, queue, sameEnd, startMoves, stack, demand, amounts⟩ :=
    run.moves_start
  exact geometry.of_claim run.requestFound queue stack amounts demand sameEnd
    startMoves

/-- Every successful call keeps the geometry. -/
theorem step {manager after : RedeemManager} (geometry : Geometry manager)
    (step : Step manager after) : Geometry after := by
  refine step_preserves ?request ?withdraw ?claim ?pull geometry step
  case request =>
    intro E river world worldAfter manager after amount id recipient initiator
      geometry returned
    obtain ⟨-, -, rfl, -, height, maximum, heightRead, -, -, rfl⟩ :=
      requestRedeem_eq_ok.mp returned
    exact geometry.of_request rfl rfl (by simp [requestedAmounts]) rfl
      fun few => geometry.next_request few heightRead
  case withdraw =>
    intro manager after amount value geometry returned
    obtain ⟨bounded, -, height, heightRead, rfl⟩ := reportWithdraw_ok returned
    exact geometry.of_event rfl rfl (by simp [requestedAmounts])
      (Nat.sub_add_cancel bounded)
      fun few => geometry.next_event few heightRead
  case claim =>
    intro E river call world worldAfter manager after requestId eventId _ _
      geometry run
    exact geometry.claim run
  case pull =>
    intro manager after max sent geometry returned
    obtain ⟨-, -, rfl⟩ := pullExceedingEth_ok returned
    exact ⟨geometry.requested_length, geometry.request_end,
      geometry.request_start, geometry.event_start, geometry.demand⟩

theorem of_reachable {manager : RedeemManager}
    (reachable : Reachable manager) : Geometry manager := by
  induction reachable with
  | refl => exact Geometry.fresh
  | tail _ next induction => exact induction.step next

end Geometry

namespace Geometry

variable {manager : RedeemManager}

theorem queueEnd_eq (geometry : Geometry manager)
    (few : manager.redeemQueue.length ≤ uint32Limit) :
    manager.queueEnd = (requestedAmounts manager.logs).sum := by
  have length := geometry.requested_length
  rw [queueEnd, List.getLast?_eq_getElem?]
  cases last : manager.redeemQueue[manager.redeemQueue.length - 1]? with
  | none =>
      have empty : manager.redeemQueue.length = 0 := by
        have outside := List.getElem?_eq_none_iff.mp last
        omega
      rw [empty] at length
      rw [List.eq_nil_of_length_eq_zero length]
      rfl
  | some request =>
      have inside := (List.getElem?_eq_some_iff.mp last).1
      have ends := geometry.request_end _ request (by omega) last
      rw [List.take_of_length_le (by omega)] at ends
      exact ends

theorem stackEnd_eq (geometry : Geometry manager)
    (few : manager.withdrawalStack.length ≤ uint32Limit) :
    manager.stackEnd = manager.eventAmounts.sum := by
  rw [stackEnd, List.getLast?_eq_getElem?]
  cases last :
      manager.withdrawalStack[manager.withdrawalStack.length - 1]? with
  | none =>
      have outside := List.getElem?_eq_none_iff.mp last
      have empty : manager.withdrawalStack = [] :=
        List.eq_nil_of_length_eq_zero (by omega)
      rw [eventAmounts, empty]
      rfl
  | some event =>
      have inside := (List.getElem?_eq_some_iff.mp last).1
      have starts := geometry.event_start _ event (by omega) last
      have amount : manager.eventAmounts[
          manager.withdrawalStack.length - 1]? = some event.amount := by
        simp [eventAmounts, last]
      have total := sum_take_succ amount
      rw [List.take_of_length_le (by simp [eventAmounts]; omega)] at total
      rw [total, ← starts]
      rfl

/-- The unclaimed parts of two requests are disjoint, in the order of their
ids. -/
theorem requests_ordered (geometry : Geometry manager)
    {id later : Nat} {request other : RedeemRequest}
    (small : later < uint32Limit) (ordered : id < later)
    (found : manager.redeemQueue[id]? = some request)
    (otherFound : manager.redeemQueue[later]? = some other) :
    request.endPosition ≤ other.height := by
  have ends := geometry.request_end id request (ordered.trans small) found
  have starts := geometry.request_start later other small otherFound
  rw [ends]
  exact (sum_take_mono _ ordered).trans starts

theorem event_next (geometry : Geometry manager) {id : Nat}
    {event next : WithdrawalEvent} (small : id + 1 < uint32Limit)
    (found : manager.withdrawalStack[id]? = some event)
    (nextFound : manager.withdrawalStack[id + 1]? = some next) :
    next.height = event.endPosition := by
  have amount : manager.eventAmounts[id]? = some event.amount := by
    simp [eventAmounts, found]
  rw [geometry.event_start _ next small nextFound, sum_take_succ amount,
    ← geometry.event_start id event (by omega) found]
  rfl

end Geometry

/-- One step keeps every stored request, with its end and at most its
amount. -/
theorem Step.keeps_request {manager after : RedeemManager} {id : Nat}
    {request : RedeemRequest} (step : Step manager after)
    (found : manager.redeemQueue[id]? = some request) :
    ∃ kept, after.redeemQueue[id]? = some kept ∧
      kept.endPosition = request.endPosition ∧
      kept.amount ≤ request.amount := by
  refine step_preserves (motive := fun next =>
    ∃ kept, next.redeemQueue[id]? = some kept ∧
      kept.endPosition = request.endPosition ∧
      kept.amount ≤ request.amount) ?request ?withdraw ?claim ?pull
    ⟨request, found, rfl, Nat.le_refl _⟩ step
  case request =>
    rintro E river world worldAfter manager after amount newId recipient
      initiator ⟨kept, keptFound, facts⟩ returned
    obtain ⟨-, -, rfl, -, height, maximum, -, -, -, rfl⟩ :=
      requestRedeem_eq_ok.mp returned
    have inside := (List.getElem?_eq_some_iff.mp keptFound).1
    refine ⟨kept, ?_, facts⟩
    rw [List.getElem?_append_left inside]
    exact keptFound
  case withdraw =>
    rintro manager after amount value holds returned
    obtain ⟨-, -, height, -, rfl⟩ := reportWithdraw_ok returned
    exact holds
  case claim =>
    rintro E river call world worldAfter manager after requestId eventId _ _
      ⟨kept, keptFound, sameEnd, bounded⟩ run
    obtain ⟨claimed, queue, claimedEnd, startMoves, -, -, -⟩ :=
      run.moves_start
    rw [queue]
    by_cases same : requestId = id
    · subst same
      have stored : kept = run.request := by
        simpa [run.requestFound] using keptFound.symm
      subst stored
      have inside := (List.getElem?_eq_some_iff.mp keptFound).1
      refine ⟨claimed, List.getElem?_set_self inside,
        claimedEnd.trans sameEnd, ?_⟩
      simp only [RedeemRequest.endPosition] at claimedEnd
      omega
    · exact ⟨kept, by rw [List.getElem?_set_ne same]; exact keptFound,
        sameEnd, bounded⟩
  case pull =>
    rintro manager after max sent holds returned
    obtain ⟨-, -, rfl⟩ := pullExceedingEth_ok returned
    exact holds

/-- Along any run a stored request keeps its end, its amount never increases,
and an amount of 0 stays 0. -/
theorem run_keeps_request {manager after : RedeemManager} {id : Nat}
    {request : RedeemRequest}
    (run : Relation.ReflTransGen Step manager after)
    (found : manager.redeemQueue[id]? = some request) :
    ∃ kept, after.redeemQueue[id]? = some kept ∧
      kept.endPosition = request.endPosition ∧
      kept.amount ≤ request.amount ∧
      (request.amount = 0 → kept.amount = 0) := by
  induction run with
  | refl => exact ⟨request, found, rfl, Nat.le_refl _, fun zero => zero⟩
  | tail _ next induction =>
      obtain ⟨middle, middleFound, middleEnd, middleLe, -⟩ := induction
      obtain ⟨kept, keptFound, keptEnd, keptLe⟩ :=
        next.keeps_request middleFound
      exact ⟨kept, keptFound, keptEnd.trans middleEnd,
        keptLe.trans middleLe, by omega⟩

/-- The queue of requests and the stack of events stay aligned over every run
with at most 2^32 requests and events. -/
theorem queue_and_stack_geometry {manager : RedeemManager}
    (reachable : Reachable manager)
    (fewRequests : manager.redeemQueue.length ≤ uint32Limit)
    (fewEvents : manager.withdrawalStack.length ≤ uint32Limit) :
    (∀ (id : Nat) (request : RedeemRequest),
      manager.redeemQueue[id]? = some request →
      request.endPosition =
        ((requestedAmounts manager.logs).take (id + 1)).sum) ∧
    (∀ after, Relation.ReflTransGen Step manager after →
      ∀ (id : Nat) (request : RedeemRequest),
      manager.redeemQueue[id]? = some request →
      ∃ kept, after.redeemQueue[id]? = some kept ∧
        kept.endPosition = request.endPosition ∧
        kept.amount ≤ request.amount ∧
        (request.amount = 0 → kept.amount = 0)) ∧
    (∀ (id later : Nat) (request other : RedeemRequest), id < later →
      manager.redeemQueue[id]? = some request →
      manager.redeemQueue[later]? = some other →
      request.endPosition ≤ other.height) ∧
    (∀ (id : Nat) (event : WithdrawalEvent),
      manager.withdrawalStack[id]? = some event →
      event.height = (manager.eventAmounts.take id).sum) ∧
    manager.stackEnd + manager.redeemDemand = manager.queueEnd ∧
    (requestedAmounts manager.logs).length = manager.redeemQueue.length ∧
    manager.eventAmounts.sum ≤ (requestedAmounts manager.logs).sum := by
  have geometry := Geometry.of_reachable reachable
  have demand := geometry.demand
  refine ⟨?_, fun after run id request => run_keeps_request run, ?_, ?_, ?_,
    geometry.requested_length, by omega⟩
  · intro id request found
    have inside := (List.getElem?_eq_some_iff.mp found).1
    exact geometry.request_end id request (by omega) found
  · intro id later request other ordered found otherFound
    have inside := (List.getElem?_eq_some_iff.mp otherFound).1
    exact geometry.requests_ordered (by omega) ordered found otherFound
  · intro id event found
    have inside := (List.getElem?_eq_some_iff.mp found).1
    exact geometry.event_start id event (by omega) found
  · rw [geometry.stackEnd_eq fewEvents, geometry.queueEnd_eq fewRequests]
    omega

/-- Calls that all succeed, at one wei for one LsETH. -/
def acceptingCalls : RiverCalls Unit :=
  { transferFrom := fun world _ => .ok (true, world)
    underlyingBalanceFromShares := fun _ shares => .ok shares
    isDenied := fun _ _ => false
    call := fun world _ _ => some world }

def alice : Address := .ofNat 1

/-- A request of 10 LsETH, of which 4 were withdrawn for 5 wei and claimed. -/
def partlyClaimed : RedeemManager :=
  { redeemQueue :=
      [{ amount := 6, maxRedeemableEth := 6, recipient := alice, height := 4,
         initiator := alice }]
    withdrawalStack := [{ amount := 4, withdrawnEth := 5, height := 0 }]
    bufferedExceedingEth := 1
    redeemDemand := 6
    balance := 1
    logs := [.setRedeemDemand 0 10, .requestedRedeem alice 0 10 10 0,
      .setRedeemDemand 10 6, .reportedWithdrawal 0 4 5 0,
      .satisfiedRedeemRequest 0 0 4 4 6 1,
      .claimedRedeemRequest 0 alice 4 4 6]
    transfers := [.claimPayment alice 4] }

theorem partlyClaimed_reachable : Reachable partlyClaimed := by
  have run : (do
      let (manager, _, _) ← requestRedeem acceptingCalls () fresh 10 alice alice
      let manager ← reportWithdraw manager 4 5
      let (manager, _, _) ← claimRedeemRequests acceptingCalls () manager [0]
        [0] true 3
      return manager) = Except.ok partlyClaimed := by rfl
  simp only [bind_eq_ok, pure_eq_ok, Prod.exists] at run
  obtain ⟨_, _, _, request, _, report, _, _, _, claim, rfl⟩ := run
  exact ((Relation.ReflTransGen.single (.requestRedeem request)).tail
    (.reportWithdraw report)).tail (.claimRedeemRequests claim)

theorem queue_and_stack_geometry_partlyClaimed :
    partlyClaimed.stackEnd + partlyClaimed.redeemDemand =
        partlyClaimed.queueEnd ∧
      partlyClaimed.eventAmounts.sum ≤
        (requestedAmounts partlyClaimed.logs).sum := by
  obtain ⟨-, -, -, -, ends, -, sums⟩ := queue_and_stack_geometry
    partlyClaimed_reachable (by decide) (by decide)
  exact ⟨ends, sums⟩

end RedeemManager

end RiverProtocol
