import RiverProtocol.RedeemManager.Geometry

/-!
# How far claims reach

A claim with a depth walks that many events past the one it names, or to the
last one.  A whole batch leaves of each request exactly what lies beyond the
farthest event that one of its entries walked to, and the statuses say what
was left at the time.
-/

namespace RiverProtocol

open Checked Outcome Lists Segments

/-- Where the rest of a request starts once it was claimed up to a point. -/
def RedeemRequest.startBeyond (request : RedeemRequest) (point : Nat) : Nat :=
  max request.height (min request.endPosition point)

/-- What is left of a request then. -/
def RedeemRequest.leftBeyond (request : RedeemRequest) (point : Nat) : Nat :=
  request.endPosition - request.startBeyond point

namespace RedeemManager

variable {manager after : RedeemManager}

/-- Where an event ends on the line. -/
def eventEnd (manager : RedeemManager) (id : Nat) : Nat :=
  (manager.withdrawalStack[id]?.map WithdrawalEvent.endPosition).getD 0

theorem eventEnd_of_found {id : Nat} {event : WithdrawalEvent}
    (found : manager.withdrawalStack[id]? = some event) :
    manager.eventEnd id = event.endPosition := by
  rw [eventEnd, found]
  rfl

theorem Geometry.eventEnd_eq (geometry : Geometry manager) {id : Nat}
    (small : id < uint32Limit) (counted : id < manager.withdrawalStack.length) :
    manager.eventEnd id = (manager.eventAmounts.take (id + 1)).sum := by
  have found := List.getElem?_eq_getElem counted
  have amount : manager.eventAmounts[id]? =
      some (manager.withdrawalStack[id]).amount := by
    rw [eventAmounts, List.getElem?_map, found]
    rfl
  rw [eventEnd_of_found found, WithdrawalEvent.endPosition,
    geometry.event_start id _ small found, sum_take_succ amount]

theorem Geometry.eventEnd_mono (geometry : Geometry manager)
    {id later count : Nat} (small : count ≤ uint32Limit)
    (stored : count ≤ manager.withdrawalStack.length) (ordered : id ≤ later)
    (counted : later < count) :
    manager.eventEnd id ≤ manager.eventEnd later := by
  rw [geometry.eventEnd_eq (by omega) (by omega),
    geometry.eventEnd_eq (by omega) (by omega)]
  exact sum_take_mono _ (Nat.succ_le_succ ordered)

/-- The last event a claim walks to. -/
def lastWalked (call : ClaimCall) (withdrawalEventId : Nat) : Nat :=
  min (withdrawalEventId + call.depth) (call.withdrawalEventCount - 1)

/-- A request after one piece starts at the end of the event, or at its own
end. -/
theorem afterMatch_height {request : RedeemRequest} {event : WithdrawalEvent}
    (reached : request.height ≤ event.endPosition) :
    (request.afterMatch event).height =
      min request.endPosition event.endPosition := by
  simp only [RedeemRequest.afterMatch, RedeemRequest.matched,
    RedeemRequest.endPosition]
  omega

theorem claimRedeemRequest_reaches {depth : Nat}
    {params final : ClaimParameters} (geometry : Geometry manager)
    (small : params.withdrawalEventCount ≤ uint32Limit)
    (stored : params.withdrawalEventCount ≤ manager.withdrawalStack.length)
    {next : RedeemManager}
    (stack : next.withdrawalStack = manager.withdrawalStack)
    (counted : params.withdrawalEventId < params.withdrawalEventCount)
    (found : manager.withdrawalStack[params.withdrawalEventId]? =
      some params.withdrawalEvent)
    (returned : claimRedeemRequest depth next params = .ok (after, final)) :
    final.redeemRequest.height = min params.redeemRequest.endPosition
      (manager.eventEnd (min (params.withdrawalEventId + depth)
        (params.withdrawalEventCount - 1))) := by
  induction depth generalizing next params with
  | zero =>
      simp only [claimRedeemRequest, bind_eq_ok, pure_eq_ok, Prod.mk.injEq,
        Prod.exists] at returned
      obtain ⟨matched, matchedParams, matching, saved, saving, rfl, rfl⟩ :=
        returned
      obtain ⟨reached, -, -, rfl, rfl⟩ := matchWithdrawalEvent_ok matching
      have last : min (params.withdrawalEventId + 0)
          (params.withdrawalEventCount - 1) = params.withdrawalEventId := by
        omega
      rw [last, eventEnd_of_found found]
      exact afterMatch_height reached
  | succ depth induction =>
      simp only [claimRedeemRequest, bind_eq_ok, Prod.exists] at returned
      obtain ⟨matched, matchedParams, matching, returned⟩ := returned
      obtain ⟨reached, -, -, rfl, rfl⟩ := matchWithdrawalEvent_ok matching
      have height : params.afterPiece.redeemRequest.height =
          min params.redeemRequest.endPosition
            params.withdrawalEvent.endPosition := afterMatch_height reached
      have same : params.afterPiece.redeemRequest.endPosition =
          params.redeemRequest.endPosition :=
        RedeemRequest.afterMatch_endPosition _ _
      split at returned
      · rename_i continues
        simp only [bind_eq_ok, fetch_eq_ok] at returned
        obtain ⟨event, eventFound, recursive⟩ := returned
        have here : (next.afterPiece params).withdrawalStack =
            manager.withdrawalStack := stack
        rw [here] at eventFound
        have walked : final.redeemRequest.height =
            min params.afterPiece.redeemRequest.endPosition
              (manager.eventEnd (min (params.withdrawalEventId + 1 + depth)
                (params.withdrawalEventCount - 1))) :=
          @induction (params.afterPiece.withNextEvent event) small stored
            (next.afterPiece params) here continues.2 eventFound recursive
        have step : params.withdrawalEventId + 1 + depth =
            params.withdrawalEventId + (depth + 1) := by omega
        rw [walked, same, step]
      · rename_i stops
        simp only [bind_eq_ok, pure_eq_ok, Prod.mk.injEq] at returned
        obtain ⟨saved, saving, rfl, rfl⟩ := returned
        rw [height, ← eventEnd_of_found found]
        by_cases more : params.withdrawalEventId + 1 <
            params.withdrawalEventCount
        · -- nothing is left of the request
          have claimed : params.afterPiece.redeemRequest.amount = 0 := by
            by_contra left
            exact stops ⟨Nat.pos_of_ne_zero left, more⟩
          have further : manager.eventEnd params.withdrawalEventId ≤
              manager.eventEnd (min (params.withdrawalEventId + (depth + 1))
                (params.withdrawalEventCount - 1)) :=
            geometry.eventEnd_mono small stored (by omega) (by omega)
          have ended : params.redeemRequest.endPosition ≤
              manager.eventEnd params.withdrawalEventId := by
            rw [← same, RedeemRequest.endPosition, claimed, height,
              eventEnd_of_found found]
            omega
          omega
        · have last : min (params.withdrawalEventId + (depth + 1))
              (params.withdrawalEventCount - 1) =
                params.withdrawalEventId := by
            omega
          rw [last]

/-- How far the entries of a batch that name a request walk. -/
def reach (manager : RedeemManager) (call : ClaimCall) (id : Nat) :
    List (Nat × Nat) → Nat
  | [] => 0
  | (redeemRequestId, withdrawalEventId) :: rest =>
    max (if redeemRequestId = id then
        manager.eventEnd (lastWalked call withdrawalEventId)
      else 0) (reach manager call id rest)

/-- The status of a claim, from what was left before and after it. -/
def statusOf (before after : Nat) : ClaimStatus :=
  if before = 0 then .skipped
  else if after = 0 then .fullyClaimed
  else .partiallyClaimed

/-- The same request, from a later start. -/
structure ClaimedUpTo (request claimed : RedeemRequest) (point : Nat) :
    Prop where
  height : claimed.height = request.startBeyond point
  endPosition : claimed.endPosition = request.endPosition

theorem ClaimedUpTo.zero (request : RedeemRequest) :
    ClaimedUpTo request request 0 := by
  refine ⟨?_, rfl⟩
  rw [RedeemRequest.startBeyond, Nat.min_zero, Nat.max_zero]

theorem ClaimedUpTo.amount {request claimed : RedeemRequest} {point : Nat}
    (upTo : ClaimedUpTo request claimed point) :
    claimed.amount = request.leftBeyond point := by
  have ends := upTo.endPosition
  rw [RedeemRequest.leftBeyond, ← upTo.height, ← ends,
    RedeemRequest.endPosition, Nat.add_sub_cancel_left]

theorem ClaimedUpTo.trans {request middle claimed : RedeemRequest}
    {point further : Nat} (first : ClaimedUpTo request middle point)
    (second : ClaimedUpTo middle claimed further) :
    ClaimedUpTo request claimed (max point further) := by
  refine ⟨?_, second.endPosition.trans first.endPosition⟩
  rw [second.height, RedeemRequest.startBeyond, first.height,
    first.endPosition, RedeemRequest.startBeyond, RedeemRequest.startBeyond]
  omega

section Batch

variable {E : Type} {river : RiverCalls E} {call : ClaimCall}
  {world worldAfter : E} {next : RedeemManager}

/-- One entry of a batch. -/
theorem claimOne_reaches {redeemRequestId withdrawalEventId : Nat}
    {status : ClaimStatus} (geometry : Geometry manager)
    (small : call.withdrawalEventCount ≤ uint32Limit)
    (stored : call.withdrawalEventCount ≤ manager.withdrawalStack.length)
    (stack : next.withdrawalStack = manager.withdrawalStack)
    (returned : claimOne river call world next redeemRequestId
      withdrawalEventId = .ok (after, worldAfter, status)) :
    after.withdrawalStack = manager.withdrawalStack ∧
      withdrawalEventId < call.withdrawalEventCount ∧
      ∃ request claimed,
        next.redeemQueue[redeemRequestId]? = some request ∧
        after.redeemQueue = next.redeemQueue.set redeemRequestId claimed ∧
        ClaimedUpTo request claimed
          (manager.eventEnd (lastWalked call withdrawalEventId)) ∧
        status = statusOf request.amount claimed.amount := by
  simp only [claimOne, bind_eq_ok, require_eq_ok, fetch_eq_ok] at returned
  obtain ⟨-, -, -, counted, request, found, -, -, -, -, returned⟩ := returned
  refine ⟨?_, counted, ?_⟩
  all_goals split at returned
  · simp only [bind_eq_ok, require_eq_ok, pure_eq_ok, Prod.mk.injEq]
      at returned
    obtain ⟨-, -, rfl, rfl, rfl⟩ := returned
    exact stack
  · simp only [claimLoadedRequest, bind_eq_ok, pure_eq_ok, Prod.mk.injEq,
      Prod.exists] at returned
    obtain ⟨event, -, -, -, -, -, saved, params, claimed, paidManager,
      paidWorld, payment, rfl, rfl, rfl⟩ := returned
    obtain ⟨-, -, rfl⟩ := payRecipient_ok payment
    obtain ⟨-, -, -, -, -, same, -⟩ := claimRedeemRequest_frame claimed
    exact same.trans stack
  · rename_i none
    simp only [bind_eq_ok, require_eq_ok, pure_eq_ok, Prod.mk.injEq]
      at returned
    obtain ⟨-, -, rfl, rfl, rfl⟩ := returned
    refine ⟨request, request, found, ?_, ⟨?_, rfl⟩, ?_⟩
    · obtain ⟨inside, rfl⟩ := List.getElem?_eq_some_iff.mp found
      exact (List.set_getElem_self inside).symm
    · rw [RedeemRequest.startBeyond, RedeemRequest.endPosition, none]
      omega
    · rw [statusOf, if_pos none]
  · rename_i some
    simp only [claimLoadedRequest, bind_eq_ok, fetch_eq_ok, require_eq_ok,
      pure_eq_ok, Prod.mk.injEq, Prod.exists] at returned
    obtain ⟨event, eventFound, matching, answer, -, isMatching, saved, params,
      claimed, paidManager, paidWorld, payment, rfl, rfl, rfl⟩ := returned
    obtain ⟨startsBeforeEnd, startsInside⟩ := (isMatch_ok answer).mp isMatching
    obtain ⟨-, -, rfl⟩ := payRecipient_ok payment
    obtain ⟨held, heldFound, -, -, queue, -⟩ :=
      claimRedeemRequest_frame claimed
    obtain ⟨sameEnd, -, -⟩ := claimRedeemRequest_request claimed
    rw [stack] at eventFound
    have height := claimRedeemRequest_reaches geometry small stored stack
      counted eventFound claimed
    have here : event.endPosition = manager.eventEnd withdrawalEventId :=
      (eventEnd_of_found eventFound).symm
    have further : manager.eventEnd withdrawalEventId ≤
        manager.eventEnd (lastWalked call withdrawalEventId) := by
      apply geometry.eventEnd_mono small stored
      · unfold lastWalked
        omega
      · unfold lastWalked
        omega
    refine ⟨request, savedRequest held params, found, queue, ⟨?_, sameEnd⟩, ?_⟩
    · show params.redeemRequest.height = _
      rw [height, RedeemRequest.startBeyond]
      show min request.endPosition (manager.eventEnd
        (lastWalked call withdrawalEventId)) = _
      have inside : request.height ≤ request.endPosition :=
        Nat.le_add_right _ _
      omega
    · rw [statusOf, if_neg some]
      rfl

/-- What one entry leaves of every request. -/
theorem claimOne_upTo {pair : Nat × Nat} {status : ClaimStatus}
    (geometry : Geometry manager)
    (small : call.withdrawalEventCount ≤ uint32Limit)
    (stored : call.withdrawalEventCount ≤ manager.withdrawalStack.length)
    (stack : next.withdrawalStack = manager.withdrawalStack)
    (returned : claimOne river call world next pair.1 pair.2 =
      .ok (after, worldAfter, status)) {id : Nat} {claimed : RedeemRequest}
    (found : after.redeemQueue[id]? = some claimed) :
    ∃ request, next.redeemQueue[id]? = some request ∧
      ClaimedUpTo request claimed (reach manager call id [pair]) := by
  obtain ⟨-, -, request, written, requestFound, queue, upTo, -⟩ :=
    claimOne_reaches geometry small stored stack returned
  rw [queue, List.getElem?_set] at found
  simp only [reach, Nat.max_zero]
  split at found
  · rename_i same
    subst same
    split at found
    · obtain rfl := Option.some.inj found
      rw [if_pos rfl]
      exact ⟨request, requestFound, upTo⟩
    · contradiction
  · rename_i other
    rw [if_neg other]
    exact ⟨claimed, found, .zero claimed⟩

theorem reach_cons (id : Nat) (pair : Nat × Nat) (rest : List (Nat × Nat)) :
    reach manager call id (pair :: rest) =
      max (reach manager call id [pair]) (reach manager call id rest) := by
  simp only [reach, Nat.max_zero]

theorem ClaimedUpTo.leftBeyond {request claimed : RedeemRequest}
    {point : Nat} (upTo : ClaimedUpTo request claimed point)
    (further : Nat) :
    claimed.leftBeyond further = request.leftBeyond (max point further) := by
  have height := upTo.height
  have ends := upTo.endPosition
  simp only [RedeemRequest.leftBeyond, RedeemRequest.startBeyond] at height ⊢
  rw [height, ends]
  omega

/-- The loop over a batch. -/
theorem claimAll_reaches {pairs : List (Nat × Nat)}
    {statuses : List ClaimStatus} (geometry : Geometry manager)
    (small : call.withdrawalEventCount ≤ uint32Limit)
    (stored : call.withdrawalEventCount ≤ manager.withdrawalStack.length)
    (stack : next.withdrawalStack = manager.withdrawalStack)
    (returned : claimAll river call pairs world next =
      .ok (after, worldAfter, statuses)) :
    (∀ (id : Nat) (claimed : RedeemRequest),
      after.redeemQueue[id]? = some claimed →
      ∃ request, next.redeemQueue[id]? = some request ∧
        ClaimedUpTo request claimed (reach manager call id pairs)) ∧
    after.redeemQueue.length = next.redeemQueue.length ∧
    ∀ (position : Nat) (pair : Nat × Nat), pairs[position]? = some pair →
      pair.2 < call.withdrawalEventCount ∧
      ∃ request, next.redeemQueue[pair.1]? = some request ∧
        statuses[position]? = some (statusOf
          (request.leftBeyond
            (reach manager call pair.1 (pairs.take position)))
          (request.leftBeyond
            (reach manager call pair.1 (pairs.take (position + 1))))) := by
  induction pairs generalizing next world statuses with
  | nil =>
      simp only [claimAll, pure_eq_ok, Prod.mk.injEq] at returned
      obtain ⟨rfl, rfl, -⟩ := returned
      refine ⟨fun id claimed found => ⟨claimed, found, .zero claimed⟩, rfl,
        ?_⟩
      intro position pair listed
      cases listed
  | cons pair rest induction =>
      simp only [claimAll, bind_eq_ok, pure_eq_ok, Prod.mk.injEq,
        Prod.exists] at returned
      obtain ⟨middle, middleWorld, status, first, final, finalWorld, answers,
        remaining, rfl, rfl, rfl⟩ := returned
      have each : ∀ {id : Nat} {claimed : RedeemRequest},
          middle.redeemQueue[id]? = some claimed →
          ∃ request, next.redeemQueue[id]? = some request ∧
            ClaimedUpTo request claimed (reach manager call id [pair]) :=
        claimOne_upTo geometry small stored stack first
      obtain ⟨stackSame, counted, request, claimed, found, queue, upTo,
        answered⟩ := claimOne_reaches geometry small stored stack first
      obtain ⟨requests, length, statuses⟩ := induction stackSame remaining
      refine ⟨?_, ?_, ?_⟩
      · intro id final found
        obtain ⟨between, foundBetween, later⟩ := requests id final found
        obtain ⟨before, foundBefore, earlier⟩ := each foundBetween
        refine ⟨before, foundBefore, ?_⟩
        rw [reach_cons]
        exact earlier.trans later
      · rw [length, queue, List.length_set]
      · intro position entry listed
        cases position with
        | zero =>
            obtain rfl := Option.some.inj listed
            refine ⟨counted, request, found, ?_⟩
            have whole := (ClaimedUpTo.zero request).amount
            have left := upTo.amount
            simp only [List.take_zero, Nat.zero_add, List.take_succ_cons,
              reach, if_true, Nat.max_zero, List.getElem?_cons_zero,
              answered, whole, left]
        | succ position =>
            obtain ⟨named, between, foundBetween, status⟩ :=
              statuses position entry listed
            obtain ⟨before, foundBefore, earlier⟩ := each foundBetween
            refine ⟨named, before, foundBefore, ?_⟩
            rw [List.getElem?_cons_succ, status, List.take_succ_cons,
              List.take_succ_cons, reach_cons _ _ (rest.take position),
              reach_cons _ _ (rest.take (position + 1)), earlier.leftBeyond,
              earlier.leftBeyond]

/-- An entry that walks to the last event walks farther than any other. -/
theorem reach_of_last (geometry : Geometry manager)
    (small : call.withdrawalEventCount ≤ uint32Limit)
    (stored : call.withdrawalEventCount ≤ manager.withdrawalStack.length)
    {pairs : List (Nat × Nat)} {id withdrawalEventId : Nat}
    (counted : ∀ pair ∈ pairs, pair.2 < call.withdrawalEventCount)
    (named : (id, withdrawalEventId) ∈ pairs)
    (deep : call.withdrawalEventCount ≤ withdrawalEventId + call.depth + 1) :
    reach manager call id pairs =
      manager.eventEnd (call.withdrawalEventCount - 1) := by
  apply Nat.le_antisymm
  · clear named deep
    induction pairs with
    | nil => exact Nat.zero_le _
    | cons pair rest induction =>
        have positive := counted pair List.mem_cons_self
        rw [reach, Nat.max_le]
        refine ⟨?_, induction fun other member =>
          counted other (List.mem_cons_of_mem _ member)⟩
        split
        · apply geometry.eventEnd_mono small stored
          · exact Nat.min_le_right _ _
          · omega
        · exact Nat.zero_le _
  · induction pairs with
    | nil => exact nomatch named
    | cons pair rest induction =>
        rw [reach]
        cases List.mem_cons.mp named with
        | inl same =>
            subst same
            have last : lastWalked call withdrawalEventId =
                call.withdrawalEventCount - 1 := by
              unfold lastWalked
              omega
            rw [if_pos rfl, last]
            exact Nat.le_max_left _ _
        | inr later =>
            refine (induction (fun other member =>
              counted other (List.mem_cons_of_mem _ member)) later).trans ?_
            exact Nat.le_max_right _ _

end Batch

/-- The call a batch fixes before its loop. -/
def batchCall (manager : RedeemManager) (skipAlreadyClaimed : Bool)
    (depth : Nat) : ClaimCall :=
  { skipAlreadyClaimed := skipAlreadyClaimed
    depth := depth
    withdrawalEventCount := toUint32 manager.withdrawalStack.length
    redeemRequestCount := toUint32 manager.redeemQueue.length }

/-- A batch leaves of each request what lies beyond the farthest event its
entries walked to, its statuses say what was left at the time, and an entry
that is deep enough leaves nothing before the end of the events. -/
theorem claims_reach {E : Type} {river : RiverCalls E}
    {world worldAfter : E} {redeemRequestIds withdrawalEventIds : List Nat}
    {skipAlreadyClaimed : Bool} {depth : Nat} {statuses : List ClaimStatus}
    (reachable : Reachable manager)
    (returned : claimRedeemRequests river world manager redeemRequestIds
      withdrawalEventIds skipAlreadyClaimed depth =
        .ok (after, worldAfter, statuses)) :
    let call := batchCall manager skipAlreadyClaimed depth
    let pairs := redeemRequestIds.zip withdrawalEventIds
    (∀ (id : Nat) (claimed : RedeemRequest),
      after.redeemQueue[id]? = some claimed →
      ∃ request, manager.redeemQueue[id]? = some request ∧
        ClaimedUpTo request claimed (reach manager call id pairs) ∧
        ∀ withdrawalEventId, (id, withdrawalEventId) ∈ pairs →
          call.withdrawalEventCount ≤ withdrawalEventId + depth + 1 →
          claimed.amount = request.leftBeyond
            (manager.eventEnd (call.withdrawalEventCount - 1))) ∧
    after.redeemQueue.length = manager.redeemQueue.length ∧
    ∀ (position : Nat) (pair : Nat × Nat), pairs[position]? = some pair →
      ∃ request, manager.redeemQueue[pair.1]? = some request ∧
        statuses[position]? = some (statusOf
          (request.leftBeyond
            (reach manager call pair.1 (pairs.take position)))
          (request.leftBeyond
            (reach manager call pair.1 (pairs.take (position + 1))))) := by
  intro call pairs
  have geometry := Geometry.of_reachable reachable
  have small : call.withdrawalEventCount ≤ uint32Limit :=
    Nat.le_of_lt (toUint32_lt _)
  have stored : call.withdrawalEventCount ≤ manager.withdrawalStack.length :=
    toUint32_le _
  simp only [claimRedeemRequests, bind_eq_ok] at returned
  obtain ⟨-, -, loop⟩ := returned
  obtain ⟨requests, length, answers⟩ :=
    claimAll_reaches geometry small stored rfl loop
  have counted : ∀ pair ∈ pairs, pair.2 < call.withdrawalEventCount := by
    intro pair member
    obtain ⟨position, listed⟩ := List.mem_iff_getElem?.mp member
    exact (answers position pair listed).1
  refine ⟨?_, length, fun position pair listed =>
    (answers position pair listed).2⟩
  intro id claimed found
  obtain ⟨request, foundBefore, upTo⟩ := requests id claimed found
  refine ⟨request, foundBefore, upTo, ?_⟩
  intro withdrawalEventId named deep
  rw [← reach_of_last geometry small stored counted named deep]
  exact upTo.amount

/-- Two more events for the partly claimed request, which starts at 4. -/
def reportedTwice : Except Error RedeemManager := do
  let manager ← reportWithdraw partlyClaimed 3 3
  reportWithdraw manager 1 1

/-- The request is claimed twice in one batch, each time from one event. -/
theorem claims_reach_sample : ∃ manager after statuses claimed,
    reportedTwice = .ok manager ∧
      claimRedeemRequests acceptingCalls () manager [0, 0] [1, 2] false 0 =
        .ok (after, (), statuses) ∧
      statuses[1]? = some .partiallyClaimed ∧
      after.redeemQueue[0]? = some claimed ∧ claimed.amount = 2 := by
  have checked : returns reportedTwice (fun manager =>
      manager.redeemQueue.map (fun request => request.leftBeyond 7) = [3] &&
        manager.redeemQueue.map (fun request => request.leftBeyond 8) = [2] &&
        manager.eventEnd 1 = 7 && manager.eventEnd 2 = 8 &&
        manager.withdrawalStack.length = 3 &&
        returns (claimRedeemRequests acceptingCalls () manager [0, 0] [1, 2]
          false 0) fun _ => true) = true := by
    decide +kernel
  obtain ⟨manager, returned, passed⟩ := returns_iff.mp checked
  simp only [Bool.and_eq_true, decide_eq_true_eq] at passed
  obtain ⟨⟨⟨⟨⟨left, further⟩, first⟩, second⟩, events⟩, claiming⟩ := passed
  obtain ⟨⟨after, ⟨⟩, statuses⟩, claimed, -⟩ := returns_iff.mp claiming
  have reachable : Reachable manager := by
    simp only [reportedTwice, bind_eq_ok] at returned
    obtain ⟨_, one, two⟩ := returned
    exact (partlyClaimed_reachable.tail (.reportWithdraw one)).tail
      (.reportWithdraw two)
  obtain ⟨requests, length, answers⟩ := claims_reach reachable claimed
  obtain ⟨request, rest, queue, beyond, -⟩ :=
    List.map_eq_cons_iff.mp left
  have found : manager.redeemQueue[0]? = some request := by
    rw [queue]
    rfl
  have beyondLast : request.leftBeyond 8 = 2 := by
    rw [queue] at further
    exact (List.cons.inj further).1
  have counted : toUint32 manager.withdrawalStack.length = 3 := by
    rw [events]
    decide
  have one : manager.reach (batchCall manager false 0) 0 [(0, 1)] = 7 := by
    simp [reach, lastWalked, batchCall, counted, first]
  have both : manager.reach (batchCall manager false 0) 0
      [(0, 1), (0, 2)] = 8 := by
    simp [reach, lastWalked, batchCall, counted, first, second]
  obtain ⟨named, namedFound, status⟩ := answers 1 (0, 2) rfl
  obtain rfl := Option.some.inj (namedFound.symm.trans found)
  have inside : 0 < after.redeemQueue.length := by
    rw [length]
    exact (List.getElem?_eq_some_iff.mp found).1
  have stored := List.getElem?_eq_getElem inside
  obtain ⟨original, originalFound, upTo, -⟩ := requests 0 _ stored
  obtain rfl := Option.some.inj (originalFound.symm.trans found)
  refine ⟨manager, after, statuses, _, returned, claimed, ?_, stored, ?_⟩
  · rw [status]
    show some (statusOf (original.leftBeyond (manager.reach _ 0 [(0, 1)]))
      (original.leftBeyond (manager.reach _ 0 [(0, 1), (0, 2)]))) = _
    rw [one, both, beyond, beyondLast]
    rfl
  · rw [upTo.amount]
    show original.leftBeyond (manager.reach _ 0 [(0, 1), (0, 2)]) = 2
    rw [both, beyondLast]

end RedeemManager

end RiverProtocol
