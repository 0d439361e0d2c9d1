import RiverProtocol.RedeemManager.Geometry

/-!
# Solvency of the redeem manager

Every withdrawal event brings its ether.  Each piece of a claim takes a share
of one event, which is paid or diverted to the exceeding buffer.  The
invariant bounds, for every event, what was taken from it and what the
requests that still overlap it may take.  Summed over all events it bounds the
buffer and the open shares by the balance.

While a claim runs, its request is not saved yet and the ether it collected is
not paid yet, so the invariant has the pending payment as a parameter and is
kept for the state with the request saved early.
-/

namespace RiverProtocol

open Checked Outcome Lists Segments

/-- The withdrawal event that a reported piece was taken from. -/
def RedeemLog.satisfiedBy : RedeemLog → Option Nat
  | .satisfiedRedeemRequest _ withdrawalEventId _ _ _ _ =>
      some withdrawalEventId
  | _ => none

/-- The ether a reported piece pays. -/
def RedeemLog.paid : RedeemLog → Nat
  | .satisfiedRedeemRequest _ _ _ ethAmountSatisfied _ _ => ethAmountSatisfied
  | _ => 0

/-- The ether a reported piece diverts to the exceeding buffer. -/
def RedeemLog.diverted : RedeemLog → Nat
  | .satisfiedRedeemRequest _ _ _ _ _ ethAmountExceeding => ethAmountExceeding
  | _ => 0

def EthTransfer.claimed : EthTransfer → Nat
  | .claimPayment _ amount => amount
  | .exceedingPull _ => 0

def EthTransfer.pulled : EthTransfer → Nat
  | .claimPayment _ _ => 0
  | .exceedingPull amount => amount

/-- The share of the event's ether that belongs to the part of the request
that still overlaps it. -/
def RedeemRequest.openEth (redeemRequest : RedeemRequest)
    (withdrawalEvent : WithdrawalEvent) : Nat :=
  prorated withdrawalEvent.withdrawnEth withdrawalEvent.amount
    (overlap redeemRequest.height redeemRequest.endPosition
      withdrawalEvent.height withdrawalEvent.endPosition)

namespace RedeemRequest

variable {request : RedeemRequest} {event : WithdrawalEvent}

/-- The part of a request matched by the event it starts in is its overlap
with the event. -/
theorem openEth_eq_matchedEth (startsInside : event.height ≤ request.height) :
    request.openEth event = request.matchedEth event := by
  have bound : min request.endPosition event.endPosition - request.height =
      request.matched event := by
    unfold matched endPosition
    omega
  rw [openEth, matchedEth, overlap_of_start_ge startsInside, bound]

theorem openEth_afterMatch
    (reached : request.height ≤ event.endPosition) :
    (request.afterMatch event).openEth event = 0 := by
  have nothing : overlap (request.afterMatch event).height
      (request.afterMatch event).endPosition event.height
      event.endPosition = 0 := by
    rw [afterMatch_endPosition]
    simp only [overlap, afterMatch, matched, endPosition] at reached ⊢
    omega
  rw [openEth, nothing, prorated_zero]

theorem openEth_afterMatch_le (other : WithdrawalEvent) :
    (request.afterMatch event).openEth other ≤ request.openEth other := by
  apply prorated_mono
  rw [afterMatch_endPosition]
  simp only [overlap, afterMatch]
  omega

theorem openEth_of_after (apart : event.endPosition ≤ request.height) :
    request.openEth event = 0 := by
  rw [openEth, overlap_eq_zero_of_le apart, prorated_zero]

end RedeemRequest

namespace RedeemManager

/-- The ether paid to recipients on account of a withdrawal event. -/
def paidOn (logs : List RedeemLog) (id : Nat) : Nat :=
  (logs.map fun log =>
    if log.satisfiedBy = some id then log.paid else 0).sum

/-- The ether diverted to the exceeding buffer on account of a withdrawal
event. -/
def divertedOn (logs : List RedeemLog) (id : Nat) : Nat :=
  (logs.map fun log =>
    if log.satisfiedBy = some id then log.diverted else 0).sum

def paidTotal (logs : List RedeemLog) : Nat := (logs.map RedeemLog.paid).sum

def divertedTotal (logs : List RedeemLog) : Nat :=
  (logs.map RedeemLog.diverted).sum

/-- The ether sent to claim recipients. -/
def paidOut (transfers : List EthTransfer) : Nat :=
  (transfers.map EthTransfer.claimed).sum

/-- The ether River pulled from the exceeding buffer. -/
def pulledOut (transfers : List EthTransfer) : Nat :=
  (transfers.map EthTransfer.pulled).sum

/-- The ether of all withdrawal events. -/
def withdrawnTotal (manager : RedeemManager) : Nat :=
  (manager.withdrawalStack.map WithdrawalEvent.withdrawnEth).sum

/-- What the requests with a 32-bit id may still take from the event. -/
def openOn (manager : RedeemManager) (event : WithdrawalEvent) : Nat :=
  ((manager.redeemQueue.take uint32Limit).map
    fun request => request.openEth event).sum

/-- What the requests may still take from all events, over the ids that can
be named. -/
def openTotal (manager : RedeemManager) : Nat :=
  ((manager.withdrawalStack.take uint32Limit).map manager.openOn).sum

structure Solvent (manager : RedeemManager) (pending : Nat) : Prop where
  balance : manager.balance + paidOut manager.transfers +
    pulledOut manager.transfers = manager.withdrawnTotal
  buffer : manager.bufferedExceedingEth + pulledOut manager.transfers =
    divertedTotal manager.logs
  payments : paidTotal manager.logs = paidOut manager.transfers + pending
  event_bound : ∀ id event, manager.withdrawalStack[id]? = some event →
    paidOn manager.logs id + divertedOn manager.logs id +
        (if id < uint32Limit then manager.openOn event else 0) ≤
      event.withdrawnEth
  logged : ∀ log ∈ manager.logs, ∀ id, log.satisfiedBy = some id →
    id < manager.withdrawalStack.length

section Logs

variable {logs later : List RedeemLog} {log : RedeemLog} {id : Nat}

@[simp] theorem paidOn_append :
    paidOn (logs ++ later) id = paidOn logs id + paidOn later id := by
  simp [paidOn]

@[simp] theorem divertedOn_append :
    divertedOn (logs ++ later) id =
      divertedOn logs id + divertedOn later id := by
  simp [divertedOn]

@[simp] theorem paidTotal_append :
    paidTotal (logs ++ later) = paidTotal logs + paidTotal later := by
  simp [paidTotal]

@[simp] theorem divertedTotal_append :
    divertedTotal (logs ++ later) =
      divertedTotal logs + divertedTotal later := by
  simp [divertedTotal]

theorem carries_nothing (silent : log.satisfiedBy = none) :
    log.paid = 0 ∧ log.diverted = 0 := by
  cases log with
  | satisfiedRedeemRequest _ _ _ _ _ _ => simp [RedeemLog.satisfiedBy] at silent
  | _ => exact ⟨rfl, rfl⟩

theorem paidOn_eq_zero (fresh : ∀ log ∈ logs, log.satisfiedBy ≠ some id) :
    paidOn logs id = 0 := by
  apply List.sum_eq_zero
  intro amount member
  obtain ⟨log, logged, rfl⟩ := List.mem_map.mp member
  exact if_neg (fresh log logged)

theorem divertedOn_eq_zero (fresh : ∀ log ∈ logs, log.satisfiedBy ≠ some id) :
    divertedOn logs id = 0 := by
  apply List.sum_eq_zero
  intro amount member
  obtain ⟨log, logged, rfl⟩ := List.mem_map.mp member
  exact if_neg (fresh log logged)

/-- Appending events that report no piece changes no sum. -/
theorem silent_append (logs : List RedeemLog) {later : List RedeemLog}
    (silent : ∀ log ∈ later, log.satisfiedBy = none) :
    (∀ id, paidOn (logs ++ later) id = paidOn logs id) ∧
      (∀ id, divertedOn (logs ++ later) id = divertedOn logs id) ∧
      paidTotal (logs ++ later) = paidTotal logs ∧
      divertedTotal (logs ++ later) = divertedTotal logs := by
  have other : ∀ id, ∀ log ∈ later, log.satisfiedBy ≠ some id := by
    intro id log member
    simp [silent log member]
  have paid : paidTotal later = 0 := by
    apply List.sum_eq_zero
    intro amount member
    obtain ⟨log, logged, rfl⟩ := List.mem_map.mp member
    exact (carries_nothing (silent log logged)).1
  have diverted : divertedTotal later = 0 := by
    apply List.sum_eq_zero
    intro amount member
    obtain ⟨log, logged, rfl⟩ := List.mem_map.mp member
    exact (carries_nothing (silent log logged)).2
  refine ⟨?_, ?_, ?_, ?_⟩
  · intro id
    rw [paidOn_append, paidOn_eq_zero (other id), Nat.add_zero]
  · intro id
    rw [divertedOn_append, divertedOn_eq_zero (other id), Nat.add_zero]
  · rw [paidTotal_append, paid, Nat.add_zero]
  · rw [divertedTotal_append, diverted, Nat.add_zero]

end Logs

section Transfers

variable {transfers later : List EthTransfer}

@[simp] theorem paidOut_append :
    paidOut (transfers ++ later) = paidOut transfers + paidOut later := by
  simp [paidOut]

@[simp] theorem pulledOut_append :
    pulledOut (transfers ++ later) =
      pulledOut transfers + pulledOut later := by
  simp [pulledOut]

end Transfers

section Open

variable {manager after : RedeemManager}

theorem openOn_set {id : Nat} {request written : RedeemRequest}
    (event : WithdrawalEvent) (small : id < uint32Limit)
    (found : manager.redeemQueue[id]? = some request)
    (queue : after.redeemQueue = manager.redeemQueue.set id written) :
    after.openOn event + request.openEth event =
      manager.openOn event + written.openEth event := by
  have inside : (manager.redeemQueue.take uint32Limit)[id]? = some request := by
    rw [List.getElem?_take_of_lt small]
    exact found
  rw [openOn, openOn, queue, List.take_set]
  exact sum_map_set (fun stored => stored.openEth event) written inside

theorem openOn_congr (event : WithdrawalEvent)
    (queue : after.redeemQueue = manager.redeemQueue) :
    after.openOn event = manager.openOn event := by
  rw [openOn, openOn, queue]

theorem openOn_request {request : RedeemRequest} {event : WithdrawalEvent}
    (queue : after.redeemQueue = manager.redeemQueue ++ [request])
    (apart : manager.redeemQueue.length < uint32Limit →
      event.endPosition ≤ request.height) :
    after.openOn event = manager.openOn event := by
  rw [openOn, openOn, queue]
  by_cases room : manager.redeemQueue.length < uint32Limit
  · rw [take_concat_of_lt room, List.map_append, List.sum_append,
      List.take_of_length_le (Nat.le_of_lt room)]
    simp [RedeemRequest.openEth_of_after (apart room)]
  · rw [take_concat_of_le (Nat.le_of_not_lt room)]

/-- The requests together take at most the whole of an event. -/
theorem openOn_le (geometry : Geometry manager) (event : WithdrawalEvent) :
    manager.openOn event ≤ event.withdrawnEth := by
  let requests := manager.redeemQueue.take uint32Limit
  let part := fun request : RedeemRequest =>
    overlap request.height request.endPosition event.height event.endPosition
  let total := fun id => before event.height event.endPosition
    ((requestedAmounts manager.logs).take id).sum
  have parts : total 0 + (requests.map part).sum ≤ total requests.length := by
    apply sum_le_of_increments
    intro id request found
    have small : id < uint32Limit := by
      have inside := (List.getElem?_eq_some_iff.mp found).1
      exact inside.trans_le (List.length_take_le _ _)
    rw [List.getElem?_take_of_lt small] at found
    have ends := geometry.request_end id request small found
    have starts := geometry.request_start id request small found
    have grows : max request.endPosition
        ((requestedAmounts manager.logs).take id).sum =
        ((requestedAmounts manager.logs).take (id + 1)).sum := by
      rw [ends]
      exact Nat.max_eq_left (sum_take_mono _ (Nat.le_succ id))
    have piece : total id + part request ≤ before event.height
        event.endPosition (max request.endPosition
          ((requestedAmounts manager.logs).take id).sum) :=
      overlap_le_before starts
    rw [grows] at piece
    exact piece
  have whole : total requests.length ≤ event.amount := by
    calc
      total requests.length ≤ event.endPosition - event.height := before_le
      _ = event.amount := Nat.add_sub_cancel_left _ _
  have bounded : (requests.map part).sum ≤ event.amount :=
    (Nat.le_add_left _ _).trans (parts.trans whole)
  calc
    manager.openOn event ≤
        prorated event.withdrawnEth event.amount (requests.map part).sum :=
      sum_prorated_le event.withdrawnEth event.amount part requests
    _ ≤ event.withdrawnEth := prorated_le_value _ bounded

end Open

namespace Solvent

theorem fresh : Solvent RedeemManager.fresh 0 where
  balance := rfl
  buffer := rfl
  payments := rfl
  event_bound := by simp [RedeemManager.fresh]
  logged := by simp [RedeemManager.fresh]

section Preservation

variable {manager after : RedeemManager} {pending : Nat}

/-- A request pushed at the end of the queue, reported by events that carry no
ether. -/
theorem of_request {request : RedeemRequest} {reported : List RedeemLog}
    (solvent : Solvent manager pending) (geometry : Geometry manager)
    (queue : after.redeemQueue = manager.redeemQueue ++ [request])
    (stack : after.withdrawalStack = manager.withdrawalStack)
    (buffer : after.bufferedExceedingEth = manager.bufferedExceedingEth)
    (balance : after.balance = manager.balance)
    (transfers : after.transfers = manager.transfers)
    (logs : after.logs = manager.logs ++ reported)
    (silent : ∀ log ∈ reported, log.satisfiedBy = none)
    (starts : manager.redeemQueue.length < uint32Limit →
      request.height = (requestedAmounts manager.logs).sum) :
    Solvent after pending := by
  obtain ⟨paidOnEq, divertedOnEq, paidEq, divertedEq⟩ :=
    silent_append manager.logs silent
  rw [← logs] at paidOnEq divertedOnEq paidEq divertedEq
  constructor
  · rw [balance, transfers, withdrawnTotal, stack]
    exact solvent.balance
  · rw [buffer, transfers, divertedEq]
    exact solvent.buffer
  · rw [paidEq, transfers]
    exact solvent.payments
  · intro id event found
    rw [stack] at found
    have bound := solvent.event_bound id event found
    rw [paidOnEq, divertedOnEq]
    split
    · rename_i small
      rw [if_pos small] at bound
      rw [openOn_request queue]
      · exact bound
      · intro room
        -- events end where the requested amounts end, at the latest
        have amount : manager.eventAmounts[id]? = some event.amount := by
          simp [eventAmounts, found]
        have ends : event.endPosition =
            (manager.eventAmounts.take (id + 1)).sum := by
          rw [sum_take_succ amount, ← geometry.event_start id event small found]
          rfl
        have within := sum_take_le manager.eventAmounts (id + 1)
        have demand := geometry.demand
        rw [starts room, ends]
        omega
    · rename_i large
      rw [if_neg large] at bound
      exact bound
  · intro log member id satisfied
    rw [stack]
    rw [logs, List.mem_append] at member
    cases member with
    | inl old => exact solvent.logged log old id satisfied
    | inr new =>
        rw [silent log new] at satisfied
        contradiction

/-- An event pushed on the stack with its ether. -/
theorem of_event {event : WithdrawalEvent} {reported : List RedeemLog}
    (solvent : Solvent manager pending) (geometry : Geometry manager)
    (queue : after.redeemQueue = manager.redeemQueue)
    (stack : after.withdrawalStack = manager.withdrawalStack ++ [event])
    (buffer : after.bufferedExceedingEth = manager.bufferedExceedingEth)
    (balance : after.balance = manager.balance + event.withdrawnEth)
    (transfers : after.transfers = manager.transfers)
    (logs : after.logs = manager.logs ++ reported)
    (silent : ∀ log ∈ reported, log.satisfiedBy = none) :
    Solvent after pending := by
  obtain ⟨paidOnEq, divertedOnEq, paidEq, divertedEq⟩ :=
    silent_append manager.logs silent
  rw [← logs] at paidOnEq divertedOnEq paidEq divertedEq
  constructor
  · have total := solvent.balance
    rw [balance, transfers, withdrawnTotal, stack, List.map_append,
      List.sum_append, List.map_singleton, List.sum_singleton]
    unfold withdrawnTotal at total
    omega
  · rw [buffer, transfers, divertedEq]
    exact solvent.buffer
  · rw [paidEq, transfers]
    exact solvent.payments
  · intro id stored found
    rw [stack] at found
    rw [paidOnEq, divertedOnEq, openOn_congr stored queue]
    cases getElem?_concat_cases found with
    | inl old => exact solvent.event_bound id stored old
    | inr last =>
        obtain ⟨rfl, rfl⟩ := last
        have untouched : ∀ log ∈ manager.logs,
            log.satisfiedBy ≠ some manager.withdrawalStack.length := by
          intro log member satisfied
          exact Nat.lt_irrefl _ (solvent.logged log member _ satisfied)
        rw [paidOn_eq_zero untouched, divertedOn_eq_zero untouched]
        have whole := openOn_le geometry stored
        split <;> omega
  · intro log member id satisfied
    rw [stack, List.length_append]
    rw [logs, List.mem_append] at member
    cases member with
    | inl old =>
        exact (solvent.logged log old id satisfied).trans_le
          (Nat.le_add_right _ _)
    | inr new =>
        rw [silent log new] at satisfied
        contradiction

/-- One piece of a claim, its request written in place and its payment
pending. -/
theorem of_piece {id eventId : Nat} (request : RedeemRequest)
    {written : RedeemRequest} {event : WithdrawalEvent} {log : RedeemLog}
    (solvent : Solvent manager pending)
    (requestFound : manager.redeemQueue[id]? = some request)
    (eventFound : manager.withdrawalStack[eventId]? = some event)
    (requestSmall : id < uint32Limit) (eventSmall : eventId < uint32Limit)
    (startsInside : event.height ≤ request.height)
    (reached : request.height ≤ event.endPosition)
    (matched : written.openEth = (request.afterMatch event).openEth)
    (satisfied : log.satisfiedBy = some eventId)
    (paid : log.paid = request.paidEth event)
    (diverted : log.diverted = request.exceedingEth event)
    (queue : after.redeemQueue = manager.redeemQueue.set id written)
    (stack : after.withdrawalStack = manager.withdrawalStack)
    (buffer : after.bufferedExceedingEth =
      manager.bufferedExceedingEth + request.exceedingEth event)
    (balance : after.balance = manager.balance)
    (transfers : after.transfers = manager.transfers)
    (logs : after.logs = manager.logs ++ [log]) :
    Solvent after (pending + request.paidEth event) := by
  have split := request.paidEth_add_exceedingEth event
  constructor
  · rw [balance, transfers, withdrawnTotal, stack]
    exact solvent.balance
  · have total := solvent.buffer
    rw [buffer, transfers, logs, divertedTotal_append]
    simp only [divertedTotal, List.map_singleton, List.sum_singleton,
      diverted] at total ⊢
    omega
  · have total := solvent.payments
    rw [transfers, logs, paidTotal_append]
    simp only [paidTotal, List.map_singleton, List.sum_singleton, paid]
      at total ⊢
    omega
  · intro position other found
    rw [stack] at found
    have bound := solvent.event_bound position other found
    have moved := openOn_set other requestSmall requestFound queue
    rw [matched] at moved
    rw [logs, paidOn_append, divertedOn_append]
    simp only [paidOn, divertedOn, List.map_singleton, List.sum_singleton,
      satisfied, paid, diverted, Option.some.injEq] at bound ⊢
    by_cases same : eventId = position
    · subst same
      have here : event = other := by
        simpa [eventFound] using found
      subst here
      rw [if_pos rfl, if_pos rfl]
      rw [if_pos eventSmall] at bound ⊢
      rw [RedeemRequest.openEth_afterMatch reached,
        RedeemRequest.openEth_eq_matchedEth startsInside] at moved
      omega
    · have shrinks : (request.afterMatch event).openEth other ≤
          request.openEth other :=
        RedeemRequest.openEth_afterMatch_le other
      rw [if_neg same, if_neg same]
      split at bound
      · rename_i small
        rw [if_pos small]
        omega
      · rename_i large
        rw [if_neg large]
        omega
  · intro logged member position satisfiedBy
    rw [stack]
    rw [logs, List.mem_append, List.mem_singleton] at member
    cases member with
    | inl old => exact solvent.logged logged old position satisfiedBy
    | inr new =>
        rw [new, satisfied, Option.some.injEq] at satisfiedBy
        rw [← satisfiedBy]
        exact (List.getElem?_eq_some_iff.mp eventFound).1

/-- The pending payment reaches its recipient. -/
theorem of_payment {recipient : Address} {log : RedeemLog}
    (solvent : Solvent manager pending) (enough : pending ≤ manager.balance)
    (silent : log.satisfiedBy = none)
    (queue : after.redeemQueue = manager.redeemQueue)
    (stack : after.withdrawalStack = manager.withdrawalStack)
    (buffer : after.bufferedExceedingEth = manager.bufferedExceedingEth)
    (balance : after.balance = manager.balance - pending)
    (transfers : after.transfers =
      manager.transfers ++ [.claimPayment recipient pending])
    (logs : after.logs = manager.logs ++ [log]) : Solvent after 0 := by
  obtain ⟨paidOnEq, divertedOnEq, paidEq, divertedEq⟩ :=
    silent_append manager.logs
      (show ∀ logged ∈ [log], logged.satisfiedBy = none by simpa using silent)
  rw [← logs] at paidOnEq divertedOnEq paidEq divertedEq
  have paidNow : paidOut after.transfers =
      paidOut manager.transfers + pending := by
    rw [transfers, paidOut_append]
    simp [paidOut, EthTransfer.claimed]
  have pulledNow : pulledOut after.transfers = pulledOut manager.transfers := by
    rw [transfers, pulledOut_append]
    simp [pulledOut, EthTransfer.pulled]
  constructor
  · have total := solvent.balance
    rw [balance, paidNow, pulledNow, withdrawnTotal, stack]
    unfold withdrawnTotal at total
    omega
  · rw [buffer, pulledNow, divertedEq]
    exact solvent.buffer
  · rw [paidEq, paidNow]
    exact solvent.payments
  · intro id event found
    rw [stack] at found
    rw [paidOnEq, divertedOnEq, openOn_congr event queue]
    exact solvent.event_bound id event found
  · intro logged member id satisfied
    rw [stack]
    rw [logs, List.mem_append, List.mem_singleton] at member
    cases member with
    | inl old => exact solvent.logged logged old id satisfied
    | inr new =>
        rw [new, silent] at satisfied
        contradiction

end Preservation

/-- The buffer, the pending payment and all open shares are covered by the
balance. -/
theorem covered {manager : RedeemManager} {pending : Nat}
    (solvent : Solvent manager pending) :
    manager.bufferedExceedingEth + pending + manager.openTotal ≤
      manager.balance := by
  let spent := fun id =>
    paidOn manager.logs id + divertedOn manager.logs id
  have bound : ∑ id ∈ Finset.range manager.withdrawalStack.length, spent id +
      manager.openTotal ≤ manager.withdrawnTotal := by
    apply sum_range_add_sum_take_le
    exact solvent.event_bound
  have silent : ∀ log ∈ manager.logs, log.satisfiedBy = none →
      log.paid = 0 ∧ log.diverted = 0 := fun _ _ => carries_nothing
  have paid : ∑ id ∈ Finset.range manager.withdrawalStack.length,
      paidOn manager.logs id = paidTotal manager.logs :=
    sum_range_keyed _ _ _ _ solvent.logged
      fun log member none => (silent log member none).1
  have diverted : ∑ id ∈ Finset.range manager.withdrawalStack.length,
      divertedOn manager.logs id = divertedTotal manager.logs :=
    sum_range_keyed _ _ _ _ solvent.logged
      fun log member none => (silent log member none).2
  have balance := solvent.balance
  have buffer := solvent.buffer
  have payments := solvent.payments
  rw [Finset.sum_add_distrib, paid, diverted] at bound
  omega

/-- The state of a running claim with its request saved early. -/
def early (manager : RedeemManager) (stored : RedeemRequest)
    (params : ClaimParameters) : RedeemManager :=
  { manager with
    redeemQueue := manager.redeemQueue.set params.redeemRequestId
      (savedRequest stored params) }

/-- What holds of a running claim between two pieces: `stored` is the request
as the queue still has it. -/
structure Running (manager : RedeemManager) (stored : RedeemRequest)
    (next : RedeemManager) (params : ClaimParameters) : Prop where
  requestFound : next.redeemQueue[params.redeemRequestId]? = some stored
  requestSmall : params.redeemRequestId < uint32Limit
  eventFound : next.withdrawalStack[params.withdrawalEventId]? =
    some params.withdrawalEvent
  countSmall : params.withdrawalEventCount < uint32Limit
  eventCounted : params.withdrawalEventId < params.withdrawalEventCount
  startsInside : params.withdrawalEvent.height ≤ params.redeemRequest.height
  stack : next.withdrawalStack = manager.withdrawalStack
  solvent : Solvent (early next stored params) params.ethAmount

theorem Running.piece {manager next : RedeemManager} {stored : RedeemRequest}
    {params : ClaimParameters} (running : Running manager stored next params)
    (reached : params.redeemRequest.height ≤
      params.withdrawalEvent.endPosition) :
    Running manager stored (next.afterPiece params) params.afterPiece := by
  have inside := (List.getElem?_eq_some_iff.mp running.requestFound).1
  refine ⟨running.requestFound, running.requestSmall, running.eventFound,
    running.countSmall, running.eventCounted, ?_, running.stack, ?_⟩
  · exact running.startsInside.trans (Nat.le_add_right _ _)
  · have saved : (early next stored params).redeemQueue[
        params.redeemRequestId]? = some (savedRequest stored params) :=
      List.getElem?_set_self inside
    have queue : (early (next.afterPiece params) stored
        params.afterPiece).redeemQueue =
        (early next stored params).redeemQueue.set params.redeemRequestId
          (savedRequest stored params.afterPiece) :=
      (List.set_set _).symm
    have matched : (savedRequest stored params.afterPiece).openEth =
        ((savedRequest stored params).afterMatch
          params.withdrawalEvent).openEth := rfl
    exact of_piece (savedRequest stored params) running.solvent saved
      running.eventFound running.requestSmall
      (running.eventCounted.trans running.countSmall) running.startsInside
      reached matched rfl rfl rfl queue rfl rfl rfl rfl rfl

theorem Running.touches {manager next : RedeemManager}
    {stored : RedeemRequest} {params : ClaimParameters}
    {withdrawalEvent : WithdrawalEvent}
    (running : Running manager stored next params)
    (geometry : Geometry manager)
    (counted : params.withdrawalEventId + 1 < params.withdrawalEventCount)
    (found : next.withdrawalStack[params.withdrawalEventId + 1]? =
      some withdrawalEvent) :
    withdrawalEvent.height = params.withdrawalEvent.endPosition := by
  apply geometry.event_next (counted.trans running.countSmall)
  · exact running.stack ▸ running.eventFound
  · exact running.stack ▸ found

theorem Running.advance {manager next : RedeemManager}
    {stored : RedeemRequest} {params : ClaimParameters}
    {withdrawalEvent : WithdrawalEvent}
    (running : Running manager stored next params)
    (geometry : Geometry manager)
    (finished : params.redeemRequest.height =
      params.withdrawalEvent.endPosition)
    (counted : params.withdrawalEventId + 1 < params.withdrawalEventCount)
    (found : next.withdrawalStack[params.withdrawalEventId + 1]? =
      some withdrawalEvent) :
    Running manager stored next (params.withNextEvent withdrawalEvent) := by
  have touches := running.touches geometry counted found
  refine ⟨running.requestFound, running.requestSmall, found,
    running.countSmall, counted, ?_, running.stack, running.solvent⟩
  calc
    withdrawalEvent.height = params.redeemRequest.height :=
      touches.trans finished.symm
    _ ≤ _ := Nat.le_refl _

/-- A claim starts with nothing pending. -/
theorem Running.start {manager : RedeemManager} {call : ClaimCall}
    {request : RedeemRequest} {event : WithdrawalEvent}
    {redeemRequestId withdrawalEventId : Nat}
    (solvent : Solvent manager 0)
    (requestFound : manager.redeemQueue[redeemRequestId]? = some request)
    (eventFound : manager.withdrawalStack[withdrawalEventId]? = some event)
    (requestSmall : redeemRequestId < uint32Limit)
    (countSmall : call.withdrawalEventCount < uint32Limit)
    (eventCounted : withdrawalEventId < call.withdrawalEventCount)
    (startsInside : event.height ≤ request.height) :
    Running manager request manager (initialParameters call request event
      redeemRequestId withdrawalEventId) := by
  refine ⟨requestFound, requestSmall, eventFound, countSmall, eventCounted,
    startsInside, rfl, ?_⟩
  have unchanged : early manager request (initialParameters call request
      event redeemRequestId withdrawalEventId) = manager := by
    obtain ⟨inside, rfl⟩ := List.getElem?_eq_some_iff.mp requestFound
    have unsaved : savedRequest manager.redeemQueue[redeemRequestId]
        (initialParameters call manager.redeemQueue[redeemRequestId]
          event redeemRequestId withdrawalEventId) =
        manager.redeemQueue[redeemRequestId] := rfl
    simp only [early, unsaved]
    simp only [initialParameters, List.set_getElem_self]
  rw [unchanged]
  exact solvent

/-- A claim on a solvent manager stops with its payment pending and covered. -/
theorem of_claimRedeemRequest {manager saved : RedeemManager}
    {depth : Nat} {call : ClaimCall} {request : RedeemRequest}
    {event : WithdrawalEvent} {redeemRequestId withdrawalEventId : Nat}
    {params : ClaimParameters}
    (solvent : Solvent manager 0) (geometry : Geometry manager)
    (requestFound : manager.redeemQueue[redeemRequestId]? = some request)
    (eventFound : manager.withdrawalStack[withdrawalEventId]? = some event)
    (requestSmall : redeemRequestId < uint32Limit)
    (countSmall : call.withdrawalEventCount < uint32Limit)
    (eventCounted : withdrawalEventId < call.withdrawalEventCount)
    (startsInside : event.height ≤ request.height)
    (claimed : claimRedeemRequest depth manager (initialParameters call
      request event redeemRequestId withdrawalEventId) =
        .ok (saved, params)) :
    Solvent saved params.ethAmount := by
  obtain ⟨matched, running, saving⟩ :=
    claimRedeemRequest_induction (motive := Running manager request)
      (fun _ _ running reached _ _ => running.piece reached)
      (fun _ _ _ running finished counted found =>
        running.advance geometry finished counted found)
      (Running.start solvent requestFound eventFound requestSmall countSmall
        eventCounted startsInside)
      claimed
  obtain ⟨stored, found, rfl⟩ := saveRedeemRequest_ok saving
  have same : stored = request := by
    simpa [running.requestFound] using found.symm
  rw [same]
  exact running.solvent

theorem of_claim {E : Type} {river : RiverCalls E} {call : ClaimCall}
    {world worldAfter : E} {manager after : RedeemManager}
    {redeemRequestId withdrawalEventId : Nat}
    (solvent : Solvent manager 0) (geometry : Geometry manager)
    (eventCount : call.withdrawalEventCount < uint32Limit)
    (requestCount : call.redeemRequestCount < uint32Limit)
    (run : ClaimRun river call world manager redeemRequestId
      withdrawalEventId worldAfter after) : Solvent after 0 := by
  have matched := of_claimRedeemRequest solvent geometry run.requestFound
    run.eventFound (run.requestCounted.trans requestCount) eventCount
    run.eventCounted run.startsInside run.claimed
  have silent : (RedeemLog.claimedRedeemRequest redeemRequestId
      run.params.redeemRequest.recipient run.params.ethAmount
      run.params.lsETHAmount run.params.redeemRequest.amount).satisfiedBy =
        none := rfl
  apply matched.of_payment run.enough silent
  · exact run.redeemQueue_eq
  · exact run.withdrawalStack_eq
  · exact run.bufferedExceedingEth_eq
  · exact run.balance_eq
  · exact run.transfers_eq
  · exact run.logs_eq

/-- River takes its part of the buffer. -/
theorem of_pull {manager after : RedeemManager} {max sent : Nat}
    (solvent : Solvent manager 0)
    (returned : pullExceedingEth manager max = .ok (after, sent)) :
    Solvent after 0 := by
  obtain ⟨amount, enough, rfl⟩ := pullExceedingEth_ok returned
  have within : sent ≤ manager.bufferedExceedingEth :=
    amount ▸ Nat.min_le_left _ _
  have paidNow : ∀ sent, paidOut (if sent = 0 then []
      else [.exceedingPull sent]) = 0 := by
    intro sent
    split <;> rfl
  have pulledNow : ∀ sent, pulledOut (if sent = 0 then []
      else [.exceedingPull sent]) = sent := by
    intro sent
    split
    · rename_i none
      exact none.symm
    · simp [pulledOut, EthTransfer.pulled]
  have balance := solvent.balance
  have buffer := solvent.buffer
  have payments := solvent.payments
  refine ⟨?_, ?_, ?_, solvent.event_bound, solvent.logged⟩
  · simp only [paidOut_append, pulledOut_append, paidNow, pulledNow]
    simp only [withdrawnTotal] at balance ⊢
    omega
  · simp only [pulledOut_append, pulledNow]
    omega
  · simp only [paidOut_append, paidNow]
    omega

/-- Every successful call keeps the manager solvent. -/
theorem step {manager after : RedeemManager} (solvent : Solvent manager 0)
    (geometry : Geometry manager) (step : Step manager after) :
    Solvent after 0 := by
  have both : Solvent after 0 ∧ Geometry after := by
    refine step_preserves (motive := fun next => Solvent next 0 ∧ Geometry next)
      ?request ?withdraw ?claim ?pull ⟨solvent, geometry⟩ step
    case request =>
      rintro E river world worldAfter manager after amount id recipient
        initiator ⟨solvent, geometry⟩ returned
      refine ⟨?_, geometry.step (.requestRedeem returned)⟩
      obtain ⟨-, -, rfl, -, height, maximum, heightRead, -, -, rfl⟩ :=
        requestRedeem_eq_ok.mp returned
      refine solvent.of_request geometry rfl rfl rfl rfl rfl
        (List.append_assoc _ _ _) (by simp [RedeemLog.satisfiedBy]) ?_
      exact fun few => geometry.next_request few heightRead
    case withdraw =>
      rintro manager after amount value ⟨solvent, geometry⟩ returned
      refine ⟨?_, geometry.step (.reportWithdraw returned)⟩
      obtain ⟨-, -, height, -, rfl⟩ := reportWithdraw_ok returned
      exact solvent.of_event geometry rfl rfl rfl rfl rfl
        (List.append_assoc _ _ _) (by simp [RedeemLog.satisfiedBy])
    case claim =>
      rintro E river call world worldAfter manager after requestId eventId
        eventCount requestCount ⟨solvent, geometry⟩ run
      obtain ⟨claimed, queue, sameEnd, startMoves, stack, demand, amounts⟩ :=
        run.moves_start
      exact ⟨of_claim solvent geometry eventCount requestCount run,
        geometry.of_claim run.requestFound queue stack amounts demand sameEnd
          startMoves⟩
    case pull =>
      rintro manager after max sent ⟨solvent, geometry⟩ returned
      exact ⟨solvent.of_pull returned,
        geometry.step (.pullExceedingEth returned)⟩
  exact both.1

theorem of_reachable {manager : RedeemManager}
    (reachable : Reachable manager) : Solvent manager 0 := by
  induction reachable with
  | refl => exact Solvent.fresh
  | tail run next induction =>
      exact induction.step (Geometry.of_reachable run) next

end Solvent

theorem capPayment_error {buffered ethAmount maximum : Nat} {failure : Error}
    (failed : capPayment buffered ethAmount maximum = .error failure) :
    ∃ reason, failure = .panic reason := by
  unfold capPayment at failed
  split at failed
  · simp only [bind_eq_error, uadd_eq_error, pure_eq_error, and_false,
      exists_false, or_false] at failed
    exact ⟨_, failed.2.symm⟩
  · simp at failed

theorem matchWithdrawalEvent_error {manager : RedeemManager}
    {params : ClaimParameters} {failure : Error}
    (failed : matchWithdrawalEvent manager params = .error failure) :
    ∃ reason, failure = .panic reason := by
  simp only [matchWithdrawalEvent, bind_eq_error, uadd_eq_error,
    usub_eq_error, umul_eq_error, udiv_eq_error, pure_eq_error] at failed
  rcases failed with panics | ⟨_, -, panics | ⟨_, -, panics | ⟨_, -, panics |
    ⟨_, -, panics | ⟨_, -, panics | ⟨_, -, capped | ⟨_, -, panics |
    ⟨_, -, panics | ⟨_, -, panics | ⟨_, -, panics | ⟨_, -, panics |
    ⟨_, -, none⟩⟩⟩⟩⟩⟩⟩⟩⟩⟩⟩⟩
  all_goals first
    | exact ⟨_, panics.2.symm⟩
    | exact capPayment_error capped
    | exact none.elim

theorem saveRedeemRequest_error {manager : RedeemManager}
    {params : ClaimParameters} {failure : Error}
    (failed : saveRedeemRequest manager params = .error failure) :
    ∃ reason, failure = .panic reason := by
  simp only [saveRedeemRequest, bind_eq_error, fetch_eq_error, pure_eq_error,
    and_false, exists_false, or_false] at failed
  exact ⟨_, failed.2.symm⟩

/-- The recursion of a claim moves no ether, so only a panic stops it. -/
theorem claimRedeemRequest_error {depth : Nat} {manager : RedeemManager}
    {params : ClaimParameters} {failure : Error}
    (failed : claimRedeemRequest depth manager params = .error failure) :
    ∃ reason, failure = .panic reason := by
  induction depth generalizing manager params with
  | zero =>
      simp only [claimRedeemRequest, bind_eq_error, pure_eq_error, and_false,
        exists_false, or_false] at failed
      cases failed with
      | inl matching => exact matchWithdrawalEvent_error matching
      | inr saving =>
          obtain ⟨_, -, saving⟩ := saving
          exact saveRedeemRequest_error saving
  | succ depth induction =>
      simp only [claimRedeemRequest, bind_eq_error] at failed
      cases failed with
      | inl matching => exact matchWithdrawalEvent_error matching
      | inr continues =>
          obtain ⟨_, -, failed⟩ := continues
          split at failed
          · simp only [bind_eq_error, fetch_eq_error] at failed
            cases failed with
            | inl outside => exact ⟨_, outside.2.symm⟩
            | inr recursive =>
                obtain ⟨_, -, recursive⟩ := recursive
                exact induction recursive
          · simp only [bind_eq_error, pure_eq_error, and_false, exists_false,
              or_false] at failed
            exact saveRedeemRequest_error failed

theorem payRecipient_insufficient {E : Type} {river : RiverCalls E}
    {world : E} {manager : RedeemManager} {recipient lacking : Address}
    {ethAmount : Nat}
    (failed : payRecipient river world manager recipient ethAmount =
      .error (.claimRedeemFailed lacking .insufficientBalance)) :
    manager.balance < ethAmount := by
  simp only [payRecipient, bind_eq_error, require_eq_error] at failed
  rcases failed with lacks | ⟨_, -, answered⟩
  · exact Nat.lt_of_not_le lacks.1
  · split at answered <;> simp at answered

theorem claimOne_never_insufficient {E : Type} {river : RiverCalls E}
    {call : ClaimCall} {world : E} {manager : RedeemManager}
    {redeemRequestId withdrawalEventId : Nat} {lacking : Address}
    (solvent : Solvent manager 0) (geometry : Geometry manager)
    (eventCount : call.withdrawalEventCount < uint32Limit)
    (requestCount : call.redeemRequestCount < uint32Limit) :
    claimOne river call world manager redeemRequestId withdrawalEventId ≠
      .error (.claimRedeemFailed lacking .insufficientBalance) := by
  intro failed
  rcases claimOne_error failed with rejected | ⟨request, event, requestFound,
    eventFound, requestCounted, eventCounted, -, startsInside, failing⟩
  · cases rejected
  · rcases failing with claiming | ⟨saved, params, claimed, paying⟩
    · obtain ⟨reason, panics⟩ := claimRedeemRequest_error claiming
      simp at panics
    · have pending := Solvent.of_claimRedeemRequest solvent geometry
        requestFound eventFound (requestCounted.trans requestCount)
        eventCount eventCounted startsInside claimed
      have covered := pending.covered
      have lacks : saved.balance < params.ethAmount :=
        payRecipient_insufficient paying
      omega

theorem claimAll_never_insufficient {E : Type} {river : RiverCalls E}
    {call : ClaimCall} {lacking : Address}
    (eventCount : call.withdrawalEventCount < uint32Limit)
    (requestCount : call.redeemRequestCount < uint32Limit)
    {pairs : List (Nat × Nat)} {world : E} {manager : RedeemManager}
    (solvent : Solvent manager 0) (geometry : Geometry manager) :
    claimAll river call pairs world manager ≠
      .error (.claimRedeemFailed lacking .insufficientBalance) := by
  have kept : ∀ {world worldAfter : E} {manager after : RedeemManager}
      {requestId eventId : Nat}, Solvent manager 0 ∧ Geometry manager →
      ClaimRun river call world manager requestId eventId worldAfter after →
      Solvent after 0 ∧ Geometry after := by
    rintro world worldAfter manager after requestId eventId
      ⟨solvent, geometry⟩ run
    obtain ⟨claimed, queue, sameEnd, startMoves, stack, demand, amounts⟩ :=
      run.moves_start
    exact ⟨Solvent.of_claim solvent geometry eventCount requestCount run,
      geometry.of_claim run.requestFound queue stack amounts demand sameEnd
        startMoves⟩
  intro failed
  obtain ⟨reached, worldReached, requestId, eventId, ⟨reachedSolvent,
    reachedGeometry⟩, first⟩ := claimAll_error kept ⟨solvent, geometry⟩ failed
  exact claimOne_never_insufficient reachedSolvent reachedGeometry eventCount
    requestCount first

theorem pullExceedingEth_of_le {manager : RedeemManager} {max : Nat}
    (held : min manager.bufferedExceedingEth max ≤ manager.balance) :
    ∃ after sent, pullExceedingEth manager max = .ok (after, sent) := by
  have within : min manager.bufferedExceedingEth max ≤
      manager.bufferedExceedingEth := Nat.min_le_left _ _
  simp only [pullExceedingEth, LibUint256.min_eq]
  split
  · simp only [usub, if_pos within, ok_bind, require_of held]
    exact ⟨_, _, rfl⟩
  · exact ⟨_, _, rfl⟩

/-- Every event covers what was taken from it, the balance covers the buffer
and every open share, and no claim or pull fails for lack of ether. -/
theorem eth_solvency {manager : RedeemManager}
    (reachable : Reachable manager) :
    (∀ (id : Nat) (event : WithdrawalEvent),
      manager.withdrawalStack[id]? = some event →
      paidOn manager.logs id + divertedOn manager.logs id ≤
        event.withdrawnEth) ∧
    manager.balance + paidOut manager.transfers +
        pulledOut manager.transfers = manager.withdrawnTotal ∧
    manager.bufferedExceedingEth + manager.openTotal ≤ manager.balance ∧
    (∀ (E : Type) (river : RiverCalls E) (world : E)
      (redeemRequestIds withdrawalEventIds : List Nat)
      (skipAlreadyClaimed : Bool) (depth : Nat) (recipient : Address),
      claimRedeemRequests river world manager redeemRequestIds
        withdrawalEventIds skipAlreadyClaimed depth ≠
        .error (.claimRedeemFailed recipient .insufficientBalance)) ∧
    (∀ max : Nat, ∃ after sent, pullExceedingEth manager max =
      .ok (after, sent)) ∧
    paidTotal manager.logs = paidOut manager.transfers ∧
    divertedTotal manager.logs =
      manager.bufferedExceedingEth + pulledOut manager.transfers := by
  have solvent := Solvent.of_reachable reachable
  have geometry := Geometry.of_reachable reachable
  have covered := solvent.covered
  refine ⟨?_, solvent.balance, by omega, ?_, ?_, solvent.payments,
    solvent.buffer.symm⟩
  · intro id event found
    exact (Nat.le_add_right _ _).trans (solvent.event_bound id event found)
  · intro E river world requestIds eventIds skip depth recipient failed
    simp only [claimRedeemRequests, bind_eq_error, require_eq_error,
      reduceCtorEq, and_false, false_or] at failed
    obtain ⟨-, -, loop⟩ := failed
    exact claimAll_never_insufficient (toUint32_lt _) (toUint32_lt _) solvent
      geometry loop
  · intro max
    have held : min manager.bufferedExceedingEth max ≤ manager.balance := by
      omega
    exact pullExceedingEth_of_le held

theorem eth_solvency_partlyClaimed :
    partlyClaimed.bufferedExceedingEth + partlyClaimed.openTotal ≤
        partlyClaimed.balance ∧
      partlyClaimed.balance + paidOut partlyClaimed.transfers +
          pulledOut partlyClaimed.transfers =
        partlyClaimed.withdrawnTotal := by
  obtain ⟨-, balance, covered, -⟩ := eth_solvency partlyClaimed_reachable
  exact ⟨covered, balance⟩

/-- The request of one wei of LsETH that starts at `height`. -/
def unitRequest (height : Nat) : RedeemRequest :=
  { amount := 1, maxRedeemableEth := 1, recipient := alice, height := height,
    initiator := alice }

theorem nextHeight_units {count : Nat} (few : count < uint32Limit) :
    nextHeight (((List.range count).map unitRequest).map
      RedeemRequest.position) count = .ok count := by
  unfold nextHeight
  split
  · rename_i nonzero
    have last : (((List.range count).map unitRequest).map
        RedeemRequest.position)[count - 1]? = some (count - 1, 1) := by
      have inside : count - 1 < count := by omega
      simp [inside, unitRequest, RedeemRequest.position]
    have small : count - 1 + 1 < wordLimit := by
      have smaller : uint32Limit < wordLimit := by decide
      omega
    simp only [fetch, last, ok_bind, uadd, addBelow, if_pos small]
    rw [Nat.sub_add_cancel (Nat.pos_of_ne_zero nonzero)]
  · rename_i zero
    have empty : count = 0 := by omega
    rw [empty]
    rfl

/-- A request with an acceptable height is pushed. -/
theorem requestRedeem_unit {manager : RedeemManager} {height : Nat}
    (heightRead : nextHeight
      (manager.redeemQueue.map RedeemRequest.position)
      (toUint32 manager.redeemQueue.length) = .ok height)
    (fits : manager.redeemDemand + 1 < wordLimit) :
    ∃ after id, requestRedeem acceptingCalls () manager 1 alice alice =
        .ok (after, (), id) ∧
      after.redeemQueue = manager.redeemQueue ++ [unitRequest height] ∧
      after.withdrawalStack = manager.withdrawalStack ∧
      after.redeemDemand = manager.redeemDemand + 1 ∧
      after.balance = manager.balance := by
  have named : alice ≠ .zero := by decide
  simp only [requestRedeem, notZeroAddress, require_of named,
    require_of Nat.one_ne_zero, acceptingCalls, ok_bind, heightRead, uadd,
    addBelow, if_pos fits]
  exact ⟨_, _, rfl, rfl, rfl, rfl, rfl⟩

theorem units_reachable {count : Nat} (few : count ≤ uint32Limit) :
    ∃ manager, Reachable manager ∧
      manager.redeemQueue = (List.range count).map unitRequest ∧
      manager.withdrawalStack = [] ∧ manager.redeemDemand = count ∧
      manager.balance = 0 := by
  induction count with
  | zero => exact ⟨fresh, .refl, rfl, rfl, rfl, rfl⟩
  | succ count induction =>
      obtain ⟨manager, reachable, queue, stack, demand, balance⟩ :=
        induction (Nat.le_of_succ_le few)
      have smaller : uint32Limit < wordLimit := by decide
      have heightRead : nextHeight
          (manager.redeemQueue.map RedeemRequest.position)
          (toUint32 manager.redeemQueue.length) = .ok count := by
        rw [queue, List.length_map, List.length_range, toUint32_of_lt few]
        exact nextHeight_units few
      obtain ⟨after, id, requested, afterQueue, afterStack, afterDemand,
        afterBalance⟩ := requestRedeem_unit heightRead (by omega)
      refine ⟨after, reachable.tail (.requestRedeem requested), ?_,
        afterStack.trans stack, by omega, afterBalance.trans balance⟩
      rw [afterQueue, queue, List.range_succ, List.map_append]
      rfl

/-- After requests whose number is read as 0, a withdrawal of one wei and one
more request, two requests may claim the same wei. -/
theorem wrapped_request_reachable {count : Nat} (positive : 0 < count)
    (few : count ≤ uint32Limit) (wraps : toUint32 count = 0) :
    ∃ manager, Reachable manager ∧ manager.balance = 1 ∧
      2 ≤ (manager.withdrawalStack.map fun event =>
        (manager.redeemQueue.map fun request => request.openEth event).sum).sum
      := by
  have smaller : uint32Limit < wordLimit := by decide
  obtain ⟨manager, reachable, queue, stack, demand, balance⟩ :=
    units_reachable few
  obtain ⟨withdrawn, report, withdrawnQueue, withdrawnStack, withdrawnDemand,
      withdrawnBalance⟩ :
      ∃ after, reportWithdraw manager 1 1 = .ok after ∧
        after.redeemQueue = manager.redeemQueue ∧
        after.withdrawalStack = [⟨1, 1, 0⟩] ∧
        after.redeemDemand = manager.redeemDemand - 1 ∧
        after.balance = 1 := by
    have enough : 1 ≤ manager.redeemDemand := by
      rw [demand]
      exact positive
    simp only [reportWithdraw, balance, require_of enough, stack]
    exact ⟨_, rfl, rfl, rfl, rfl, rfl⟩
  have heightRead : nextHeight
      (withdrawn.redeemQueue.map RedeemRequest.position)
      (toUint32 withdrawn.redeemQueue.length) = .ok 0 := by
    rw [withdrawnQueue, queue, List.length_map, List.length_range, wraps]
    rfl
  obtain ⟨after, id, requested, afterQueue, afterStack, -, afterBalance⟩ :=
    requestRedeem_unit heightRead (by omega)
  refine ⟨after, (reachable.tail (.reportWithdraw report)).tail
    (.requestRedeem requested), afterBalance.trans withdrawnBalance, ?_⟩
  have share : (unitRequest 0).openEth ⟨1, 1, 0⟩ = 1 := rfl
  obtain ⟨others, rfl⟩ := Nat.exists_eq_succ_of_ne_zero
    (Nat.ne_of_gt positive)
  rw [afterQueue, afterStack, withdrawnStack, withdrawnQueue, queue,
    List.range_succ_eq_map]
  simp only [List.map_cons, List.map_append, List.map_nil, List.sum_cons,
    List.sum_append, List.sum_nil, List.cons_append, share]
  omega

/-- With ids that are not bounded by 2^32, the open shares of all stored
requests can exceed the balance: the height of the request with index 2^32 is
read as if its id were 0, so it overlaps the first event again. -/
theorem open_shares_exceed_balance :
    ¬ ∀ manager, Reachable manager →
      manager.bufferedExceedingEth + (manager.withdrawalStack.map
        fun event => (manager.redeemQueue.map
          fun request => request.openEth event).sum).sum ≤
        manager.balance := by
  intro bound
  obtain ⟨manager, reachable, balance, shares⟩ := wrapped_request_reachable
    (by decide) (Nat.le_refl uint32Limit) (by decide)
  have exceeds := bound manager reachable
  omega

end RedeemManager

end RiverProtocol
