import RiverProtocol.RedeemManager.Confluence

/-!
# What rounding leaves behind

The pieces claimed from an event and the parts of requests that still overlap
it make up the event exactly.  Each piece is paid or diverted less than one
wei short of its share, so an event keeps less than one wei for each of its
pieces, and the balance of the contract is the exceeding buffer, the open
shares and less than one wei for each piece ever claimed.  Only the ether of
events of no LsETH is out of reach.
-/

namespace RiverProtocol

open Checked Outcome Lists Segments

/-- The LsETH a reported piece claims. -/
def RedeemLog.taken : RedeemLog → Nat
  | .satisfiedRedeemRequest _ _ lsETHAmountSatisfied _ _ _ =>
    lsETHAmountSatisfied
  | _ => 0

/-- One for each reported piece. -/
def RedeemLog.piece : RedeemLog → Nat
  | .satisfiedRedeemRequest _ _ _ _ _ _ => 1
  | _ => 0

/-- The part of the event that the request still overlaps. -/
def RedeemRequest.openPart (redeemRequest : RedeemRequest)
    (withdrawalEvent : WithdrawalEvent) : Nat :=
  overlap redeemRequest.height redeemRequest.endPosition
    withdrawalEvent.height withdrawalEvent.endPosition

namespace RedeemManager

variable {manager after : RedeemManager}

/-- The LsETH claimed from an event. -/
def takenOn (logs : List RedeemLog) (id : Nat) : Nat :=
  (logs.map fun log =>
    if log.satisfiedBy = some id then log.taken else 0).sum

/-- The pieces claimed from an event. -/
def piecesOn (logs : List RedeemLog) (id : Nat) : Nat :=
  (logs.map fun log =>
    if log.satisfiedBy = some id then log.piece else 0).sum

def piecesTotal (logs : List RedeemLog) : Nat := (logs.map RedeemLog.piece).sum

/-- The part of an event that requests still overlap. -/
def openPart (manager : RedeemManager) (event : WithdrawalEvent) : Nat :=
  (manager.redeemQueue.map fun request => request.openPart event).sum

section Logs

variable {logs later : List RedeemLog} {id : Nat}

@[simp] theorem takenOn_append :
    takenOn (logs ++ later) id = takenOn logs id + takenOn later id := by
  simp [takenOn]

@[simp] theorem piecesOn_append :
    piecesOn (logs ++ later) id = piecesOn logs id + piecesOn later id := by
  simp [piecesOn]

theorem silent_on (silent : ∀ log ∈ later, log.satisfiedBy = none) :
    takenOn later id = 0 ∧ piecesOn later id = 0 := by
  have other : ∀ log ∈ later, log.satisfiedBy ≠ some id := by
    intro log member
    rw [silent log member]
    exact nofun
  constructor
  · apply List.sum_eq_zero
    intro amount member
    obtain ⟨log, logged, rfl⟩ := List.mem_map.mp member
    exact if_neg (other log logged)
  · apply List.sum_eq_zero
    intro amount member
    obtain ⟨log, logged, rfl⟩ := List.mem_map.mp member
    exact if_neg (other log logged)

theorem takenOn_of_none (none : piecesOn logs id = 0) :
    takenOn logs id = 0 := by
  induction logs with
  | nil => rfl
  | cons log logs induction =>
      simp only [piecesOn, takenOn, List.map_cons, List.sum_cons] at none ⊢
      obtain ⟨first, rest⟩ := Nat.add_eq_zero_iff.mp none
      rw [show (logs.map fun log =>
        if log.satisfiedBy = some id then log.taken else 0).sum = 0 from
          induction rest, Nat.add_zero]
      split
      · rename_i satisfied
        rw [if_pos satisfied] at first
        cases log <;> simp_all [RedeemLog.piece, RedeemLog.satisfiedBy]
      · rfl

end Logs

/-- Each share is paid or diverted, less than a wei short for each piece. -/
def Shared (event : WithdrawalEvent) (logs : List RedeemLog) (id : Nat) :
    Prop :=
  event.withdrawnEth * takenOn logs id + piecesOn logs id ≤
    event.amount * (paidOn logs id + divertedOn logs id + piecesOn logs id)

structure Rounded (manager : RedeemManager) : Prop where
  claimed_le : ∀ (id : Nat) (request : RedeemRequest),
    manager.redeemQueue[id]? = some request →
    request.height ≤ max ((requestedAmounts manager.logs).take id).sum
      manager.eventAmounts.sum
  tiled : ∀ (id : Nat) (event : WithdrawalEvent),
    manager.withdrawalStack[id]? = some event →
    takenOn manager.logs id + manager.openPart event = event.amount
  shared : ∀ (id : Nat) (event : WithdrawalEvent),
    manager.withdrawalStack[id]? = some event → Shared event manager.logs id

/-- All ids can be named. -/
structure Few (manager : RedeemManager) : Prop where
  requests : manager.redeemQueue.length ≤ uint32Limit
  events : manager.withdrawalStack.length ≤ uint32Limit

section Part

variable {request : RedeemRequest} {event other : WithdrawalEvent}

theorem openPart_match (startsInside : event.height ≤ request.height)
    (reached : request.height ≤ event.endPosition) :
    request.matched event + (request.afterMatch event).openPart event =
      request.openPart event := by
  have same := request.afterMatch_endPosition event
  rw [RedeemRequest.openPart, RedeemRequest.openPart, same]
  simp only [overlap, RedeemRequest.afterMatch, RedeemRequest.matched,
    RedeemRequest.endPosition] at reached ⊢
  omega

theorem openPart_match_other (startsInside : event.height ≤ request.height)
    (reached : request.height ≤ event.endPosition)
    (apart : other.endPosition ≤ event.height ∨
      event.endPosition ≤ other.height) :
    (request.afterMatch event).openPart other = request.openPart other := by
  rw [RedeemRequest.openPart, RedeemRequest.afterMatch_endPosition]
  refine overlap_of_apart startsInside (Nat.le_add_right _ _) ?_ apart
  simp only [RedeemRequest.afterMatch, RedeemRequest.matched]
  omega

end Part

/-- A running claim has taken from each event what its request no longer
overlaps. -/
structure Taking (manager : RedeemManager) (request : RedeemRequest)
    (next : RedeemManager) (params : ClaimParameters) : Prop where
  stack : next.withdrawalStack = manager.withdrawalStack
  found : manager.withdrawalStack[params.withdrawalEventId]? =
    some params.withdrawalEvent
  counted : params.withdrawalEventId < params.withdrawalEventCount
  small : params.withdrawalEventCount < uint32Limit
  startsInside : params.withdrawalEvent.height ≤ params.redeemRequest.height
  claimed_le : params.redeemRequest.height ≤
    max request.height manager.eventAmounts.sum
  taken : ∀ (id : Nat) (event : WithdrawalEvent),
    manager.withdrawalStack[id]? = some event →
    takenOn next.logs id + params.redeemRequest.openPart event =
      takenOn manager.logs id + request.openPart event
  shared : ∀ (id : Nat) (event : WithdrawalEvent),
    manager.withdrawalStack[id]? = some event → Shared event next.logs id

section Taking

variable {request : RedeemRequest} {next : RedeemManager}
  {params : ClaimParameters}

theorem piece_sums :
    takenOn [pieceLog params] params.withdrawalEventId =
        params.redeemRequest.matched params.withdrawalEvent ∧
      piecesOn [pieceLog params] params.withdrawalEventId = 1 ∧
      paidOn [pieceLog params] params.withdrawalEventId +
        divertedOn [pieceLog params] params.withdrawalEventId =
          params.redeemRequest.matchedEth params.withdrawalEvent := by
  simp [takenOn, piecesOn, paidOn, divertedOn, pieceLog,
    RedeemLog.satisfiedBy, RedeemLog.taken, RedeemLog.piece, RedeemLog.paid,
    RedeemLog.diverted, RedeemRequest.paidEth_add_exceedingEth]

theorem piece_sums_other {id : Nat} (other : params.withdrawalEventId ≠ id) :
    takenOn [pieceLog params] id = 0 ∧ piecesOn [pieceLog params] id = 0 ∧
      paidOn [pieceLog params] id = 0 ∧
        divertedOn [pieceLog params] id = 0 := by
  simp [takenOn, piecesOn, paidOn, divertedOn, pieceLog,
    RedeemLog.satisfiedBy, other]

theorem Shared.piece {event : WithdrawalEvent} {id : Nat}
    {logs : List RedeemLog} (shared : Shared event logs id)
    (nonzero : params.withdrawalEvent.amount ≠ 0)
    (here : params.withdrawalEventId = id → event = params.withdrawalEvent) :
    Shared event (logs ++ [pieceLog params]) id := by
  unfold Shared at shared ⊢
  rw [takenOn_append, piecesOn_append, paidOn_append, divertedOn_append]
  by_cases same : params.withdrawalEventId = id
  · obtain rfl := here same
    subst same
    obtain ⟨taken, piece, eth⟩ := @piece_sums params
    have short : params.withdrawalEvent.withdrawnEth *
        params.redeemRequest.matched params.withdrawalEvent <
          params.withdrawalEvent.amount *
            (params.redeemRequest.matchedEth params.withdrawalEvent + 1) :=
      lt_prorated (Nat.pos_of_ne_zero nonzero)
    rw [taken, piece, Nat.mul_add]
    rw [show paidOn logs params.withdrawalEventId +
          paidOn [pieceLog params] params.withdrawalEventId +
        (divertedOn logs params.withdrawalEventId +
          divertedOn [pieceLog params] params.withdrawalEventId) +
        (piecesOn logs params.withdrawalEventId + 1) =
      (paidOn logs params.withdrawalEventId +
          divertedOn logs params.withdrawalEventId +
          piecesOn logs params.withdrawalEventId) +
        (params.redeemRequest.matchedEth params.withdrawalEvent + 1) by
      omega, Nat.mul_add]
    omega
  · obtain ⟨taken, piece, paid, diverted⟩ := piece_sums_other same
    rw [taken, piece, paid, diverted]
    exact shared

theorem Taking.piece (geometry : Geometry manager) (few : Few manager)
    (taking : Taking manager request next params)
    (reached : params.redeemRequest.height ≤
      params.withdrawalEvent.endPosition)
    (nonzero : params.withdrawalEvent.amount ≠ 0) :
    Taking manager request (next.afterPiece params) params.afterPiece := by
  have inside := (List.getElem?_eq_some_iff.mp taking.found).1
  have eventEnd : params.withdrawalEvent.endPosition ≤
      manager.eventAmounts.sum := by
    have amount : manager.eventAmounts[params.withdrawalEventId]? =
        some params.withdrawalEvent.amount := by
      rw [eventAmounts, List.getElem?_map, taking.found]
      rfl
    rw [WithdrawalEvent.endPosition, geometry.event_start _ _
      (taking.counted.trans taking.small) taking.found, ← sum_take_succ amount]
    exact sum_take_le _ _
  have here : ∀ {id : Nat} {event : WithdrawalEvent},
      manager.withdrawalStack[id]? = some event →
      params.withdrawalEventId = id → event = params.withdrawalEvent := by
    rintro id event found rfl
    exact Option.some.inj (found.symm.trans taking.found)
  refine ⟨taking.stack, taking.found, taking.counted, taking.small, ?_, ?_,
    ?_, ?_⟩
  · exact taking.startsInside.trans (Nat.le_add_right _ _)
  · have moved : params.afterPiece.redeemRequest.height ≤
        params.withdrawalEvent.endPosition := by
      simp only [ClaimParameters.afterPiece, RedeemRequest.afterMatch,
        RedeemRequest.matched]
      omega
    exact (moved.trans eventEnd).trans (Nat.le_max_right _ _)
  · intro id event found
    have before := taking.taken id event found
    simp only [RedeemManager.afterPiece, takenOn_append,
      ClaimParameters.afterPiece]
    by_cases same : params.withdrawalEventId = id
    · obtain rfl := here found same
      subst same
      have part := openPart_match taking.startsInside reached
      rw [piece_sums.1]
      omega
    · have position := taking.counted.trans taking.small
      have otherInside := (List.getElem?_eq_some_iff.mp found).1
      have apart : event.endPosition ≤ params.withdrawalEvent.height ∨
          params.withdrawalEvent.endPosition ≤ event.height := by
        rcases Nat.lt_or_gt_of_ne same with before | behind
        · exact .inr (geometry.consecutive.ordered
            (otherInside.trans_le few.events) before taking.found found)
        · exact .inl (geometry.consecutive.ordered position behind found
            taking.found)
      rw [openPart_match_other taking.startsInside reached apart,
        (piece_sums_other same).1]
      exact before
  · intro id event found
    exact (taking.shared id event found).piece nonzero (here found)

theorem Taking.advance {withdrawalEvent : WithdrawalEvent}
    (geometry : Geometry manager)
    (taking : Taking manager request next params)
    (finished : params.redeemRequest.height =
      params.withdrawalEvent.endPosition)
    (counted : params.withdrawalEventId + 1 < params.withdrawalEventCount)
    (found : next.withdrawalStack[params.withdrawalEventId + 1]? =
      some withdrawalEvent) :
    Taking manager request next (params.withNextEvent withdrawalEvent) := by
  rw [taking.stack] at found
  have touches := geometry.event_next (counted.trans taking.small)
    taking.found found
  exact ⟨taking.stack, found, counted, taking.small,
    Nat.le_of_eq (touches.trans finished.symm), taking.claimed_le,
    taking.taken, taking.shared⟩

end Taking

/-- The rest of a queue keeps what it overlaps when one request is
written. -/
theorem openPart_set {id : Nat} {request written : RedeemRequest}
    (event : WithdrawalEvent)
    (found : manager.redeemQueue[id]? = some request)
    (queue : after.redeemQueue = manager.redeemQueue.set id written) :
    after.openPart event + request.openPart event =
      manager.openPart event + written.openPart event := by
  rw [openPart, openPart, queue]
  exact sum_map_set (fun stored => stored.openPart event) written found

namespace Rounded

theorem of_claim {E : Type} {river : RiverCalls E} {call : ClaimCall}
    {world worldAfter : E} {redeemRequestId withdrawalEventId : Nat}
    (rounded : Rounded manager) (geometry : Geometry manager)
    (few : Few manager) (eventCount : call.withdrawalEventCount < uint32Limit)
    (run : ClaimRun river call world manager redeemRequestId
      withdrawalEventId worldAfter after) : Rounded after := by
  obtain ⟨next, taking, saving⟩ :=
    claimRedeemRequest_induction (motive := Taking manager run.request)
      (fun _ _ taking reached nonzero _ =>
        taking.piece geometry few reached nonzero)
      (fun _ _ _ taking finished counted found =>
        taking.advance geometry finished counted found)
      ⟨rfl, run.eventFound, run.eventCounted, eventCount, run.startsInside,
        Nat.le_max_left _ _, fun _ _ _ => rfl, rounded.shared⟩
      run.claimed
  obtain ⟨ends, -, amounts⟩ := claimRedeemRequest_request run.claimed
  obtain ⟨stored, -, saved⟩ := saveRedeemRequest_ok saving
  have logs : after.logs = next.logs ++
      [.claimedRedeemRequest redeemRequestId
        run.params.redeemRequest.recipient run.params.ethAmount
        run.params.lsETHAmount run.params.redeemRequest.amount] := by
    rw [run.logs_eq, saved]
  obtain ⟨-, -, -, -, -, -, requested⟩ := run.moves_start
  have events : after.eventAmounts = manager.eventAmounts := by
    rw [eventAmounts, eventAmounts, run.stack_same]
  have silent : ∀ log ∈ [RedeemLog.claimedRedeemRequest redeemRequestId
      run.params.redeemRequest.recipient run.params.ethAmount
      run.params.lsETHAmount run.params.redeemRequest.amount],
      log.satisfiedBy = none := by
    simp [RedeemLog.satisfiedBy]
  refine ⟨?_, ?_, ?_⟩
  · intro id request found
    rw [run.queue_set] at found
    rw [requested, events]
    rcases getElem?_set_cases found with ⟨-, kept⟩ | ⟨rfl, rfl⟩
    · exact rounded.claimed_le id request kept
    · have before := rounded.claimed_le _ _ run.requestFound
      have moved : run.params.redeemRequest.height ≤
          max run.request.height manager.eventAmounts.sum := taking.claimed_le
      show run.params.redeemRequest.height ≤ _
      omega
  · intro id event found
    rw [run.stack_same] at found
    have whole := rounded.tiled id event found
    have taken := taking.taken id event found
    have written := openPart_set event run.requestFound run.queue_set
    have part : (savedRequest run.request run.params).openPart event =
        run.params.redeemRequest.openPart event := rfl
    rw [logs, takenOn_append, (silent_on silent).1]
    rw [part] at written
    omega
  · intro id event found
    rw [run.stack_same] at found
    have shared := taking.shared id event found
    obtain ⟨paid, diverted, -⟩ := silent_append next.logs silent
    unfold Shared at shared ⊢
    rw [logs, takenOn_append, piecesOn_append, (silent_on silent).1,
      (silent_on silent).2, paid, diverted]
    exact shared

theorem fresh : Rounded RedeemManager.fresh where
  claimed_le := by simp [RedeemManager.fresh]
  tiled := by simp [RedeemManager.fresh]
  shared := by simp [RedeemManager.fresh]

/-- A request pushed at the end of the queue lies behind all events. -/
theorem of_request {request : RedeemRequest} {reported : List RedeemLog}
    (rounded : Rounded manager) (geometry : Geometry manager)
    (few : Few manager)
    (queue : after.redeemQueue = manager.redeemQueue ++ [request])
    (stack : after.withdrawalStack = manager.withdrawalStack)
    (logs : after.logs = manager.logs ++ reported)
    (silent : ∀ log ∈ reported, log.satisfiedBy = none)
    (amounts : requestedAmounts after.logs =
      requestedAmounts manager.logs ++ [request.amount])
    (starts : request.height = (requestedAmounts manager.logs).sum) :
    Rounded after := by
  have length := geometry.requested_length
  have events : after.eventAmounts = manager.eventAmounts := by
    rw [eventAmounts, eventAmounts, stack]
  obtain ⟨paid, diverted, -⟩ := silent_append manager.logs silent
  refine ⟨?_, ?_, ?_⟩
  · intro id stored found
    rw [queue] at found
    rw [amounts, events]
    rcases getElem?_concat_cases found with old | ⟨rfl, rfl⟩
    · have inside := (List.getElem?_eq_some_iff.mp old).1
      rw [List.take_append_of_le_length (by omega)]
      exact rounded.claimed_le id stored old
    · rw [← length, List.take_left, starts]
      exact Nat.le_max_left _ _
  · intro id event found
    rw [stack] at found
    have inside := (List.getElem?_eq_some_iff.mp found).1
    have amount : manager.eventAmounts[id]? = some event.amount := by
      rw [eventAmounts, List.getElem?_map, found]
      rfl
    have ends : event.endPosition ≤ request.height := by
      have within := sum_take_le manager.eventAmounts (id + 1)
      have demand := geometry.demand
      rw [starts, WithdrawalEvent.endPosition, geometry.event_start id event
        (inside.trans_le few.events) found, ← sum_take_succ amount]
      omega
    have nothing : request.openPart event = 0 := overlap_eq_zero_of_le ends
    have whole := rounded.tiled id event found
    rw [openPart] at whole
    rw [logs, takenOn_append, (silent_on silent).1, openPart, queue,
      List.map_append, List.sum_append, List.map_singleton,
      List.sum_singleton, nothing]
    exact whole
  · intro id event found
    rw [stack] at found
    have shared := rounded.shared id event found
    unfold Shared at shared ⊢
    rw [logs, takenOn_append, piecesOn_append, (silent_on silent).1,
      (silent_on silent).2, paid, diverted]
    exact shared

/-- The requests behind the last event cover the demand without a gap. -/
theorem openPart_next {event : WithdrawalEvent} (rounded : Rounded manager)
    (geometry : Geometry manager) (few : Few manager)
    (starts : event.height = manager.eventAmounts.sum)
    (demanded : event.amount ≤ manager.redeemDemand) :
    manager.openPart event = event.amount := by
  let total := fun id => before event.height event.endPosition
    ((requestedAmounts manager.logs).take id).sum
  have parts : total 0 +
      (manager.redeemQueue.map fun request => request.openPart event).sum =
        total manager.redeemQueue.length := by
    apply sum_eq_of_increments
    intro id request found
    have inside := (List.getElem?_eq_some_iff.mp found).1
    have small := inside.trans_le few.requests
    have ends := geometry.request_end id request small found
    have cut := rounded.claimed_le id request found
    rw [← starts] at cut
    have grows := sum_take_mono (requestedAmounts manager.logs)
      (Nat.le_succ id)
    have covered := @before_add_overlap _ _ _ event.endPosition _ grows
      (geometry.request_start id request small found) cut
    rw [Nat.succ_eq_add_one, ← ends] at covered
    show total id + request.openPart event = before _ _ _
    rw [← ends]
    exact covered
  have all : (requestedAmounts manager.logs).take
      manager.redeemQueue.length = requestedAmounts manager.logs := by
    rw [← geometry.requested_length, List.take_length]
  have demand := geometry.demand
  have first : total 0 = 0 := by
    show before _ _ (List.sum []) = 0
    simp [before]
  have last : total manager.redeemQueue.length = event.amount := by
    show before _ _ (List.sum _) = _
    rw [all]
    simp only [before, WithdrawalEvent.endPosition]
    omega
  rw [first, last, Nat.zero_add] at parts
  exact parts

/-- An event pushed on the stack is covered by the requests behind the last
one. -/
theorem of_event {event : WithdrawalEvent} {reported : List RedeemLog}
    (rounded : Rounded manager) (geometry : Geometry manager)
    (solvent : Solvent manager 0) (few : Few manager)
    (queue : after.redeemQueue = manager.redeemQueue)
    (stack : after.withdrawalStack = manager.withdrawalStack ++ [event])
    (logs : after.logs = manager.logs ++ reported)
    (silent : ∀ log ∈ reported, log.satisfiedBy = none)
    (amounts : requestedAmounts after.logs = requestedAmounts manager.logs)
    (starts : event.height = manager.eventAmounts.sum)
    (demanded : event.amount ≤ manager.redeemDemand) : Rounded after := by
  have events : after.eventAmounts = manager.eventAmounts ++ [event.amount] := by
    rw [eventAmounts, stack, List.map_append]
    rfl
  have untouched : ∀ log ∈ manager.logs,
      log.satisfiedBy ≠ some manager.withdrawalStack.length := by
    intro log member satisfied
    exact Nat.lt_irrefl _ (solvent.logged log member _ satisfied)
  have none : piecesOn manager.logs manager.withdrawalStack.length = 0 := by
    apply List.sum_eq_zero
    intro amount member
    obtain ⟨log, logged, rfl⟩ := List.mem_map.mp member
    exact if_neg (untouched log logged)
  obtain ⟨paid, diverted, -⟩ := silent_append manager.logs silent
  refine ⟨?_, ?_, ?_⟩
  · intro id request found
    rw [queue] at found
    have before := rounded.claimed_le id request found
    rw [amounts, events, List.sum_append]
    omega
  · intro id stored found
    rw [stack] at found
    rw [logs, takenOn_append, (silent_on silent).1, openPart, queue]
    rcases getElem?_concat_cases found with old | ⟨rfl, rfl⟩
    · exact rounded.tiled id stored old
    · rw [takenOn_of_none none]
      have covered := openPart_next rounded geometry few starts demanded
      rw [openPart] at covered
      omega
  · intro id stored found
    rw [stack] at found
    unfold Shared
    rw [logs, takenOn_append, piecesOn_append, (silent_on silent).1,
      (silent_on silent).2, paid, diverted]
    rcases getElem?_concat_cases found with old | ⟨rfl, rfl⟩
    · exact rounded.shared id stored old
    · rw [takenOn_of_none none, none]
      exact Nat.zero_le _

end Rounded

/-- A step keeps the invariant as long as all ids can be named. -/
theorem Rounded.step (solvent : Solvent manager 0) (geometry : Geometry manager)
    (rounded : Few manager → Rounded manager) (step : Step manager after) :
    Few after → Rounded after := by
  have all : Solvent after 0 ∧ Geometry after ∧
      (Few after → Rounded after) := by
    refine step_preserves (motive := fun next => Solvent next 0 ∧
      Geometry next ∧ (Few next → Rounded next)) ?request ?withdraw ?claim
        ?pull ⟨solvent, geometry, rounded⟩ step
    case request =>
      rintro E river world worldAfter manager after amount id recipient
        initiator ⟨solvent, geometry, rounded⟩ returned
      refine ⟨solvent.step geometry (.requestRedeem returned),
        geometry.step (.requestRedeem returned), fun few => ?_⟩
      obtain ⟨-, -, rfl, -, height, maximum, heightRead, -, -, rfl⟩ :=
        requestRedeem_eq_ok.mp returned
      have room := few.requests
      rw [List.length_append, List.length_singleton] at room
      have before : Few manager := ⟨by omega, few.events⟩
      exact (rounded before).of_request geometry before rfl rfl
        (List.append_assoc _ _ _) (by simp [RedeemLog.satisfiedBy])
        (by simp [requestedAmounts])
        (geometry.next_request (by omega) heightRead)
    case withdraw =>
      rintro manager after amount value ⟨solvent, geometry, rounded⟩ returned
      refine ⟨solvent.step geometry (.reportWithdraw returned),
        geometry.step (.reportWithdraw returned), fun few => ?_⟩
      obtain ⟨demanded, -, height, heightRead, rfl⟩ :=
        reportWithdraw_ok returned
      have room := few.events
      rw [List.length_append, List.length_singleton] at room
      have before : Few manager := ⟨few.requests, by omega⟩
      exact (rounded before).of_event geometry solvent before rfl rfl
        (List.append_assoc _ _ _) (by simp [RedeemLog.satisfiedBy])
        (by simp [requestedAmounts])
        (geometry.next_event (by omega) heightRead) demanded
    case claim =>
      rintro E river call world worldAfter manager after requestId eventId
        eventCount requestCount ⟨solvent, geometry, rounded⟩ run
      refine ⟨Solvent.of_claim solvent geometry eventCount requestCount run,
        geometry.claim run, fun few => ?_⟩
      have before : Few manager := by
        refine ⟨?_, run.stack_same ▸ few.events⟩
        have length := few.requests
        rwa [run.queue_set, List.length_set] at length
      exact (rounded before).of_claim geometry before eventCount run
    case pull =>
      rintro manager after max sent ⟨solvent, geometry, rounded⟩ returned
      refine ⟨solvent.of_pull returned,
        geometry.step (.pullExceedingEth returned), fun few => ?_⟩
      obtain ⟨-, -, rfl⟩ := pullExceedingEth_ok returned
      obtain ⟨claimed_le, tiled, shared⟩ :=
        rounded ⟨few.requests, few.events⟩
      exact ⟨claimed_le, tiled, shared⟩
  exact all.2.2

theorem Rounded.of_reachable (reachable : Reachable manager)
    (few : Few manager) : Rounded manager := by
  have holds : Few manager → Rounded manager := by
    clear few
    induction reachable with
    | refl => exact fun _ => .fresh
    | tail run next induction =>
        exact Rounded.step (Solvent.of_reachable run)
          (Geometry.of_reachable run) induction next
  exact holds few

/-- The ether of an event of no LsETH, which no request can claim. -/
def strandedEth (event : WithdrawalEvent) : Nat :=
  if event.amount = 0 then event.withdrawnEth else 0

/-- The share of an event that its open part is worth. -/
def openShare (manager : RedeemManager) (event : WithdrawalEvent) : Nat :=
  prorated event.withdrawnEth event.amount (manager.openPart event)

theorem Rounded.left_le (rounded : Rounded manager) {id : Nat}
    {event : WithdrawalEvent}
    (found : manager.withdrawalStack[id]? = some event) :
    event.withdrawnEth ≤ paidOn manager.logs id + divertedOn manager.logs id +
      piecesOn manager.logs id + manager.openShare event +
        strandedEth event := by
  have shared := rounded.shared id event found
  have tiled := rounded.tiled id event found
  unfold Shared at shared
  unfold openShare strandedEth prorated
  split
  · exact Nat.le_add_left _ _
  · rename_i nonzero
    have positive := Nat.pos_of_ne_zero nonzero
    generalize paidOn manager.logs id + divertedOn manager.logs id +
      piecesOn manager.logs id = settled at shared ⊢
    have product : event.withdrawnEth * event.amount ≤
        event.amount * settled + manager.openPart event * event.withdrawnEth := by
      rw [← tiled, Nat.mul_add, tiled, Nat.mul_comm event.withdrawnEth
        (manager.openPart event)]
      omega
    have quotient : event.withdrawnEth ≤ (event.amount * settled +
        manager.openPart event * event.withdrawnEth) / event.amount :=
      (Nat.le_div_iff_mul_le positive).mpr product
    rw [Nat.mul_add_div positive] at quotient
    omega

/-- An event whose LsETH is all claimed keeps less than one wei for each of
its pieces. -/
theorem Rounded.dust (rounded : Rounded manager) {id : Nat}
    {event : WithdrawalEvent}
    (found : manager.withdrawalStack[id]? = some event)
    (nonzero : event.amount ≠ 0) (claimed : manager.openPart event = 0) :
    event.withdrawnEth < paidOn manager.logs id +
      divertedOn manager.logs id + piecesOn manager.logs id := by
  have shared := rounded.shared id event found
  have tiled := rounded.tiled id event found
  unfold Shared at shared
  have some : piecesOn manager.logs id ≠ 0 := by
    intro none
    rw [takenOn_of_none none] at tiled
    omega
  have all : takenOn manager.logs id = event.amount := by omega
  rw [all, Nat.mul_comm] at shared
  apply Nat.lt_of_mul_lt_mul_left (a := event.amount)
  omega

/-- Every event is made up of the pieces claimed from it and of what requests
still overlap; one that is claimed keeps less than a wei for each piece; and
the balance is the exceeding buffer, the open shares, less than a wei for each
piece and the ether of events of no LsETH. -/
theorem only_rounding_stays (reachable : Reachable manager)
    (fewRequests : manager.redeemQueue.length ≤ uint32Limit)
    (fewEvents : manager.withdrawalStack.length ≤ uint32Limit) :
    (∀ (id : Nat) (event : WithdrawalEvent),
      manager.withdrawalStack[id]? = some event →
      takenOn manager.logs id + manager.openPart event = event.amount ∧
      (event.amount ≠ 0 → manager.openPart event = 0 →
        event.withdrawnEth < paidOn manager.logs id +
          divertedOn manager.logs id + piecesOn manager.logs id)) ∧
    manager.balance ≤ manager.bufferedExceedingEth +
      (manager.withdrawalStack.map manager.openShare).sum +
      piecesTotal manager.logs +
      (manager.withdrawalStack.map strandedEth).sum := by
  have solvent := Solvent.of_reachable reachable
  have rounded := Rounded.of_reachable reachable ⟨fewRequests, fewEvents⟩
  refine ⟨fun id event found => ⟨rounded.tiled id event found,
    rounded.dust found⟩, ?_⟩
  have settled : manager.withdrawnTotal ≤
      ∑ id ∈ Finset.range manager.withdrawalStack.length,
        (paidOn manager.logs id + divertedOn manager.logs id +
          piecesOn manager.logs id) +
      (manager.withdrawalStack.map fun event =>
        manager.openShare event + strandedEth event).sum := by
    apply sum_map_le_sum_range_add
    intro id event found
    have left := rounded.left_le found
    omega
  have silent : ∀ log ∈ manager.logs, log.satisfiedBy = none →
      log.paid = 0 ∧ log.diverted = 0 := fun _ _ => carries_nothing
  have paid : ∑ id ∈ Finset.range manager.withdrawalStack.length,
      paidOn manager.logs id = paidTotal manager.logs :=
    sum_range_keyed _ _ _ _ solvent.logged
      fun log member none => (silent log member none).1
  have diverted : ∑ id ∈ Finset.range manager.withdrawalStack.length,
      divertedOn manager.logs id = divertedTotal manager.logs :=
    sum_range_keyed _ _ _ _ solvent.logged
      fun log member none => (silent log member none).2
  have pieces : ∑ id ∈ Finset.range manager.withdrawalStack.length,
      piecesOn manager.logs id = piecesTotal manager.logs := by
    refine sum_range_keyed _ _ _ _ solvent.logged fun log member none => ?_
    cases log with
    | satisfiedRedeemRequest => simp [RedeemLog.satisfiedBy] at none
    | _ => rfl
  rw [Finset.sum_add_distrib, Finset.sum_add_distrib, paid, diverted, pieces,
    List.sum_map_add] at settled
  have balance := solvent.balance
  have buffer := solvent.buffer
  have payments := solvent.payments
  omega

/-- The partly claimed request: nothing of its event stays behind. -/
theorem only_rounding_stays_partlyClaimed :
    takenOn partlyClaimed.logs 0 = 4 ∧
      partlyClaimed.balance ≤ partlyClaimed.bufferedExceedingEth + 1 := by
  obtain ⟨events, balance⟩ := only_rounding_stays partlyClaimed_reachable
    (by decide) (by decide)
  exact ⟨(events 0 _ rfl).1, balance⟩

end RedeemManager

end RiverProtocol
