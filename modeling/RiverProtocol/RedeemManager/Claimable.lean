import RiverProtocol.RedeemManager.Solvency

/-!
# Claims that cannot fail

A request that resolves to an event can be claimed: where every event has a
positive amount and the stored products fit a word, no arithmetic of a claim
fails at any depth.
-/

namespace RiverProtocol

open Checked Outcome Lists Segments

namespace RedeemManager

variable {manager after : RedeemManager}

/-- The search keeps a request between the starts of two events, so it only
stops at an event that matches. -/
theorem searchEvents_ok {request : RedeemRequest}
    {events : List WithdrawalEvent} {gas min max position : Nat}
    {minEvent maxEvent : WithdrawalEvent}
    (minFound : events[min]? = some minEvent)
    (maxFound : events[max]? = some maxEvent)
    (ordered : min < max) (startsAfter : minEvent.height ≤ request.height)
    (startsBefore : request.height < maxEvent.height)
    (returned : searchEvents request events gas min max = .ok position) :
    ∃ event, events[position]? = some event ∧
      isMatch request event = .ok true := by
  induction gas generalizing min max minEvent maxEvent with
  | zero => simp [searchEvents, Nat.ne_of_lt ordered] at returned
  | succ gas induction =>
      simp only [searchEvents, if_pos (Nat.ne_of_lt ordered), bind_eq_ok,
        fetch_eq_ok] at returned
      obtain ⟨mid, midFound, matching, answer, returned⟩ := returned
      have distinct : ∀ {left right : Nat} {first second : WithdrawalEvent},
          events[left]? = some first → events[right]? = some second →
          first.height < second.height → left ≠ right := by
        rintro left right first second leftFound rightFound lower rfl
        rw [leftFound] at rightFound
        rw [Option.some.inj rightFound] at lower
        exact Nat.lt_irrefl _ lower
      split at returned
      · rename_i matched
        rw [pure_eq_ok] at returned
        rw [← returned]
        exact ⟨mid, midFound, by rw [answer, matched]⟩
      · split at returned
        · rename_i before
          have apart := distinct minFound midFound
            (startsAfter.trans_lt before)
          exact induction minFound midFound (by omega) startsAfter before
            returned
        · rename_i later
          have startsMid := Nat.le_of_not_lt later
          have apart := distinct midFound maxFound
            (startsMid.trans_lt startsBefore)
          exact induction midFound maxFound (by omega) startsMid startsBefore
            returned

/-- What a resolution to an event tells. -/
structure Resolved (manager : RedeemManager) (redeemRequestId : Nat)
    (withdrawalEventId : Nat) (request : RedeemRequest)
    (event : WithdrawalEvent) : Prop where
  requestFound : manager.redeemQueue[redeemRequestId]? = some request
  unclaimed : request.amount ≠ 0
  eventFound : manager.withdrawalStack[withdrawalEventId]? = some event
  matching : isMatch request event = .ok true
  last_fits : manager.lastWithdrawalEvent.endPosition < wordLimit

theorem performDichotomicResolution_ok {gas : Nat} {request : RedeemRequest}
    {answer : Int} (geometry : Geometry manager)
    (reached : request.height < manager.lastWithdrawalEvent.endPosition)
    (returned : manager.performDichotomicResolution gas request =
      .ok answer) :
    ∃ (position : Nat) (event : WithdrawalEvent), answer = position ∧
      manager.withdrawalStack[position]? = some event ∧
      isMatch request event = .ok true := by
  simp only [performDichotomicResolution, bind_eq_ok, usub_eq_ok,
    fetch_eq_ok] at returned
  obtain ⟨max, ⟨nonempty, rfl⟩, maxEvent, maxFound, maxMatching, maxAnswer,
    returned⟩ := returned
  split at returned
  · rename_i matched
    rw [pure_eq_ok] at returned
    exact ⟨_, maxEvent, returned.symm, maxFound, by rw [maxAnswer, matched]⟩
  · rename_i maxFails
    simp only [bind_eq_ok, fetch_eq_ok] at returned
    obtain ⟨minEvent, minFound, minMatching, minAnswer, returned⟩ := returned
    split at returned
    · rename_i matched
      rw [pure_eq_ok] at returned
      exact ⟨0, minEvent, returned.symm, minFound,
        by rw [minAnswer, matched]⟩
    · simp only [bind_eq_ok, pure_eq_ok] at returned
      obtain ⟨position, searching, rfl⟩ := returned
      have first : minEvent.height = 0 :=
        geometry.event_start 0 minEvent (by decide) minFound
      have last : manager.lastWithdrawalEvent = maxEvent := by
        rw [lastWithdrawalEvent, List.getLast?_eq_getElem?, maxFound]
        rfl
      rw [last] at reached
      have startsBefore : request.height < maxEvent.height := by
        by_contra startsAfter
        exact maxFails ((isMatch_ok maxAnswer).mpr
          ⟨reached, Nat.le_of_not_lt startsAfter⟩)
      have several : 0 ≠ manager.withdrawalStack.length - 1 := by
        intro single
        rw [← single, minFound] at maxFound
        rw [← Option.some.inj maxFound, first] at startsBefore
        exact Nat.not_lt_zero _ startsBefore
      obtain ⟨event, found, matching⟩ := searchEvents_ok minFound maxFound
        (Nat.pos_of_ne_zero (Ne.symm several)) (first ▸ Nat.zero_le _)
        startsBefore searching
      exact ⟨position, event, rfl, found, matching⟩

theorem resolveRedeemRequests_ok {gas redeemRequestId : Nat} {answer : Int}
    (geometry : Geometry manager)
    (returned : manager.resolveRedeemRequests gas [redeemRequestId] =
      .ok [answer]) (resolved : 0 ≤ answer) :
    ∃ request event,
      Resolved manager redeemRequestId answer.toNat request event := by
  simp only [resolveRedeemRequests, List.mapM_cons, List.mapM_nil, bind_eq_ok,
    pure_eq_ok] at returned
  obtain ⟨value, returned, rest, rfl, same⟩ := returned
  obtain rfl : value = answer := by simpa using same
  unfold resolveRedeemRequestId at returned
  split at returned
  · rw [pure_eq_ok] at returned
    rw [← returned] at resolved
    exact absurd resolved (by decide)
  · rename_i request requestFound
    split at returned
    · rw [pure_eq_ok] at returned
      rw [← returned] at resolved
      exact absurd resolved (by decide)
    · rename_i amount
      split at returned
      · rw [pure_eq_ok] at returned
        rw [← returned] at resolved
        exact absurd resolved (by decide)
      · simp only [bind_eq_ok, uadd_eq_ok] at returned
        obtain ⟨lastEnd, ⟨fits, rfl⟩, returned⟩ := returned
        split at returned
        · rw [pure_eq_ok] at returned
          rw [← returned] at resolved
          exact absurd resolved (by decide)
        · rename_i reached
          obtain ⟨position, event, rfl, eventFound, matching⟩ :=
            performDichotomicResolution_ok geometry (Nat.lt_of_not_le reached)
              returned
          exact ⟨request, event, requestFound, amount, eventFound, matching,
            fits⟩

/-- A claim only takes from its request and from the balance. -/
theorem ClaimRun.shrinks {E : Type} {river : RiverCalls E}
    {call : ClaimCall} {world worldAfter : E}
    {redeemRequestId withdrawalEventId : Nat}
    (run : ClaimRun river call world manager redeemRequestId
      withdrawalEventId worldAfter after) :
    ∃ claimed : RedeemRequest,
      after.redeemQueue = manager.redeemQueue.set redeemRequestId claimed ∧
      after.withdrawalStack = manager.withdrawalStack ∧
      claimed.amount ≤ run.request.amount ∧
      claimed.maxRedeemableEth ≤ run.request.maxRedeemableEth ∧
      after.balance ≤ manager.balance := by
  obtain ⟨-, -, -, -, -, -, -, balance, -⟩ :=
    claimRedeemRequest_frame run.claimed
  obtain ⟨matched, ⟨amount, maximum⟩, saving⟩ :=
    claimRedeemRequest_induction
      (motive := fun _ params =>
        params.redeemRequest.amount ≤ run.request.amount ∧
        params.redeemRequest.maxRedeemableEth ≤
          run.request.maxRedeemableEth)
      (fun _ _ holds _ _ _ => ⟨(Nat.sub_le _ _).trans holds.1,
        (Nat.sub_le _ _).trans holds.2⟩)
      (fun _ _ _ holds _ _ _ => holds) ⟨Nat.le_refl _, Nat.le_refl _⟩
      run.claimed
  refine ⟨savedRequest run.request run.params, run.queue_set, run.stack_same,
    amount, maximum, ?_⟩
  calc
    after.balance = run.saved.balance - run.params.ethAmount := run.balance_eq
    _ ≤ run.saved.balance := Nat.sub_le _ _
    _ = manager.balance := balance

/-- Every event has a positive amount, and the products a claim computes from
the stored amounts fit a word. -/
structure Payable (manager : RedeemManager) : Prop where
  balance : manager.balance < wordLimit
  requests : ∀ request ∈ manager.redeemQueue, request.amount < wordLimit ∧
    request.amount * request.maxRedeemableEth < wordLimit
  events : ∀ event ∈ manager.withdrawalStack, event.amount ≠ 0 ∧
    event.amount * event.withdrawnEth < wordLimit

namespace Payable

theorem fresh : Payable RedeemManager.fresh where
  balance := by decide
  requests := by simp [RedeemManager.fresh]
  events := by simp [RedeemManager.fresh]

theorem of_request {request : RedeemRequest} (payable : Payable manager)
    (queue : after.redeemQueue = manager.redeemQueue ++ [request])
    (stack : after.withdrawalStack = manager.withdrawalStack)
    (balance : after.balance = manager.balance)
    (fits : request.amount < wordLimit ∧
      request.amount * request.maxRedeemableEth < wordLimit) :
    Payable after := by
  refine ⟨balance ▸ payable.balance, ?_, stack ▸ payable.events⟩
  rw [queue]
  exact forall_mem_concat payable.requests fits

theorem of_event {event : WithdrawalEvent} (payable : Payable manager)
    (queue : after.redeemQueue = manager.redeemQueue)
    (stack : after.withdrawalStack = manager.withdrawalStack ++ [event])
    (balance : after.balance < wordLimit)
    (fits : event.amount ≠ 0 ∧
      event.amount * event.withdrawnEth < wordLimit) : Payable after := by
  refine ⟨balance, queue ▸ payable.requests, ?_⟩
  rw [stack]
  exact forall_mem_concat payable.events fits

theorem of_claim {E : Type} {river : RiverCalls E} {call : ClaimCall}
    {world worldAfter : E} {redeemRequestId withdrawalEventId : Nat}
    (payable : Payable manager)
    (run : ClaimRun river call world manager redeemRequestId
      withdrawalEventId worldAfter after) : Payable after := by
  obtain ⟨claimed, queue, stack, amount, maximum, balance⟩ := run.shrinks
  refine ⟨balance.trans_lt payable.balance, ?_, stack ▸ payable.events⟩
  rw [queue]
  apply forall_mem_set payable.requests
  obtain ⟨amountFits, productFits⟩ := payable.requests run.request
    (List.mem_of_getElem? run.requestFound)
  exact ⟨amount.trans_lt amountFits,
    (Nat.mul_le_mul amount maximum).trans_lt productFits⟩

theorem of_claimRedeemRequests {E : Type} {river : RiverCalls E}
    {world worldAfter : E} {redeemRequestIds withdrawalEventIds : List Nat}
    {skipAlreadyClaimed : Bool} {depth : Nat} {statuses : List ClaimStatus}
    (payable : Payable manager)
    (returned : claimRedeemRequests river world manager redeemRequestIds
      withdrawalEventIds skipAlreadyClaimed depth =
        .ok (after, worldAfter, statuses)) : Payable after := by
  simp only [claimRedeemRequests, bind_eq_ok] at returned
  obtain ⟨-, -, loop⟩ := returned
  exact claimAll_induction (motive := fun _ manager => Payable manager)
    (fun _ _ _ _ _ _ payable run => payable.of_claim run) payable loop

theorem of_pull {max sent : Nat} (payable : Payable manager)
    (returned : pullExceedingEth manager max = .ok (after, sent)) :
    Payable after := by
  obtain ⟨-, -, rfl⟩ := pullExceedingEth_ok returned
  exact ⟨(Nat.sub_le _ _).trans_lt payable.balance, payable.requests,
    payable.events⟩

end Payable

/-- Everything one piece of a claim computes fits. -/
structure Fits (manager : RedeemManager) (params : ClaimParameters) :
    Prop where
  end_fits : params.withdrawalEvent.endPosition < wordLimit
  startsInside : params.withdrawalEvent.height ≤ params.redeemRequest.height
  reached : params.redeemRequest.height ≤ params.withdrawalEvent.endPosition
  event_nonzero : params.withdrawalEvent.amount ≠ 0
  request_nonzero : params.redeemRequest.amount ≠ 0
  event_product : params.withdrawalEvent.amount *
    params.withdrawalEvent.withdrawnEth < wordLimit
  request_product : params.redeemRequest.amount *
    params.redeemRequest.maxRedeemableEth < wordLimit
  buffer : manager.bufferedExceedingEth +
    params.redeemRequest.exceedingEth params.withdrawalEvent < wordLimit
  lsETH : params.lsETHAmount + params.redeemRequest.amount < wordLimit
  eth : params.ethAmount +
    params.redeemRequest.paidEth params.withdrawalEvent < wordLimit

theorem capPayment_of_fits {buffered ethAmount maximum : Nat}
    (fits : buffered + (ethAmount - maximum) < wordLimit) :
    capPayment buffered ethAmount maximum =
      .ok (min ethAmount maximum, ethAmount - maximum,
        buffered + (ethAmount - maximum)) := by
  unfold capPayment
  split
  · rename_i capped
    simp only [uadd_of_lt fits, ok_bind, Nat.min_eq_right (Nat.le_of_lt capped)]
    rfl
  · rename_i uncapped
    have within := Nat.le_of_not_lt uncapped
    rw [Nat.min_eq_left within, Nat.sub_eq_zero_of_le within]
    rfl

theorem matchWithdrawalEvent_of_fits {params : ClaimParameters}
    (fits : Fits manager params) :
    matchWithdrawalEvent manager params =
      .ok (manager.afterPiece params, params.afterPiece) := by
  obtain ⟨end_fits, startsInside, reached, event_nonzero, request_nonzero,
    event_product, request_product, buffer, lsETH, eth⟩ := fits
  have inside : params.redeemRequest.matched params.withdrawalEvent ≤
      params.withdrawalEvent.amount := by
    unfold RedeemRequest.matched
    unfold WithdrawalEvent.endPosition
    omega
  have before : params.redeemRequest.height +
      params.redeemRequest.matched params.withdrawalEvent ≤
        params.withdrawalEvent.endPosition := by
    unfold RedeemRequest.matched
    omega
  have matched_le := params.redeemRequest.matched_le params.withdrawalEvent
  have paid_le := params.redeemRequest.paidEth_le params.withdrawalEvent
  have capped : capPayment manager.bufferedExceedingEth
      (params.redeemRequest.matchedEth params.withdrawalEvent)
      (params.redeemRequest.cappedEth params.withdrawalEvent) = _ :=
    capPayment_of_fits buffer
  have end_eq : params.withdrawalEvent.height +
      params.withdrawalEvent.amount =
      params.withdrawalEvent.endPosition := rfl
  have matched_eq : min params.redeemRequest.amount
      (params.withdrawalEvent.endPosition - params.redeemRequest.height) =
      params.redeemRequest.matched params.withdrawalEvent := rfl
  have matchedEth_eq :
      params.redeemRequest.matched params.withdrawalEvent *
        params.withdrawalEvent.withdrawnEth / params.withdrawalEvent.amount =
      params.redeemRequest.matchedEth params.withdrawalEvent := rfl
  have cappedEth_eq :
      params.redeemRequest.matched params.withdrawalEvent *
        params.redeemRequest.maxRedeemableEth / params.redeemRequest.amount =
      params.redeemRequest.cappedEth params.withdrawalEvent := rfl
  have paid_eq : min (params.redeemRequest.matchedEth params.withdrawalEvent)
      (params.redeemRequest.cappedEth params.withdrawalEvent) =
      params.redeemRequest.paidEth params.withdrawalEvent := rfl
  rw [← end_eq] at end_fits before
  simp only [matchWithdrawalEvent, LibUint256.min_eq, ok_bind,
    uadd_of_lt end_fits, end_eq, usub_of_le reached, matched_eq,
    umul_of_lt ((Nat.mul_le_mul_right _ inside).trans_lt event_product),
    udiv_of_ne event_nonzero, matchedEth_eq,
    umul_of_lt ((Nat.mul_le_mul_right _ matched_le).trans_lt request_product),
    udiv_of_ne request_nonzero, cappedEth_eq, capped, paid_eq,
    uadd_of_lt (before.trans_lt end_fits), usub_of_le matched_le,
    usub_of_le paid_le,
    uadd_of_lt ((Nat.add_le_add_left matched_le _).trans_lt lsETH),
    uadd_of_lt eth]
  rfl

/-- What holds of a running claim before each piece. -/
structure Ready (manager : RedeemManager) (stored : RedeemRequest)
    (next : RedeemManager) (params : ClaimParameters) : Prop where
  running : Solvent.Running manager stored next params
  counted : params.withdrawalEventCount ≤ manager.withdrawalStack.length
  balance : next.balance = manager.balance
  reached : params.redeemRequest.height ≤ params.withdrawalEvent.endPosition
  unclaimed : params.redeemRequest.amount ≠ 0
  product : params.redeemRequest.amount *
    params.redeemRequest.maxRedeemableEth < wordLimit
  lsETH : params.lsETHAmount + params.redeemRequest.amount < wordLimit

namespace Ready

variable {next : RedeemManager} {stored : RedeemRequest}
  {params : ClaimParameters} {withdrawalEvent : WithdrawalEvent}

theorem fits (ready : Ready manager stored next params)
    (payable : Payable manager)
    (ends : ∀ event ∈ manager.withdrawalStack,
      event.endPosition < wordLimit) : Fits next params := by
  have member : params.withdrawalEvent ∈ manager.withdrawalStack :=
    List.mem_of_getElem? (ready.running.stack ▸ ready.running.eventFound)
  obtain ⟨nonzero, product⟩ := payable.events _ member
  have covered := (ready.running.piece ready.reached).solvent.covered
  have held : next.bufferedExceedingEth +
        params.redeemRequest.exceedingEth params.withdrawalEvent +
      (params.ethAmount +
        params.redeemRequest.paidEth params.withdrawalEvent) ≤
      manager.balance :=
    (Nat.le_add_right _ _).trans (covered.trans_eq ready.balance)
  have within := held.trans_lt payable.balance
  exact ⟨ends _ member, ready.running.startsInside, ready.reached, nonzero,
    ready.unclaimed, product, ready.product,
    (Nat.le_add_right _ _).trans_lt within, ready.lsETH,
    (Nat.le_add_left _ _).trans_lt within⟩

/-- A request that is not fully matched ends where the next event starts. -/
theorem advance (ready : Ready manager stored next params)
    (geometry : Geometry manager)
    (remains : params.afterPiece.redeemRequest.amount > 0)
    (counted : params.withdrawalEventId + 1 < params.withdrawalEventCount)
    (found : next.withdrawalStack[params.withdrawalEventId + 1]? =
      some withdrawalEvent) :
    Ready manager stored (next.afterPiece params)
      (params.afterPiece.withNextEvent withdrawalEvent) := by
  have running := ready.running.piece ready.reached
  have split : params.redeemRequest.matched params.withdrawalEvent =
      params.withdrawalEvent.endPosition - params.redeemRequest.height := by
    have remains : params.redeemRequest.amount -
        params.redeemRequest.matched params.withdrawalEvent > 0 := remains
    unfold RedeemRequest.matched at remains ⊢
    omega
  have finished : params.afterPiece.redeemRequest.height =
      params.withdrawalEvent.endPosition := by
    calc
      params.afterPiece.redeemRequest.height =
          params.redeemRequest.height +
            params.redeemRequest.matched params.withdrawalEvent := rfl
      _ = _ := by
        have reached := ready.reached
        omega
  have advanced := running.advance geometry finished counted found
  have touches := running.touches geometry counted found
  have matched_le := params.redeemRequest.matched_le params.withdrawalEvent
  refine ⟨advanced, ready.counted, ready.balance, ?_, remains.ne', ?_, ?_⟩
  · calc
      params.afterPiece.redeemRequest.height = withdrawalEvent.height :=
        finished.trans touches.symm
      _ ≤ _ := Nat.le_add_right _ _
  · exact (Nat.mul_le_mul (Nat.sub_le _ _) (Nat.sub_le _ _)).trans_lt
      ready.product
  · calc
      params.lsETHAmount +
            params.redeemRequest.matched params.withdrawalEvent +
          (params.redeemRequest.amount -
            params.redeemRequest.matched params.withdrawalEvent) =
        params.lsETHAmount + params.redeemRequest.amount := by omega
      _ < wordLimit := ready.lsETH

theorem save (ready : Ready manager stored next params) :
    ∃ saved, saveRedeemRequest (next.afterPiece params) params.afterPiece =
      .ok saved := by
  have found : (next.afterPiece params).redeemQueue[
      params.afterPiece.redeemRequestId]? = some stored :=
    ready.running.requestFound
  simp only [saveRedeemRequest, fetch, found, ok_bind]
  exact ⟨_, rfl⟩

/-- A claim that is ready returns at every depth. -/
theorem claimRedeemRequest_returns {depth : Nat}
    (ready : Ready manager stored next params) (geometry : Geometry manager)
    (payable : Payable manager)
    (ends : ∀ event ∈ manager.withdrawalStack,
      event.endPosition < wordLimit) :
    ∃ saved final, claimRedeemRequest depth next params =
      .ok (saved, final) := by
  induction depth generalizing next params with
  | zero =>
      obtain ⟨saved, saving⟩ := ready.save
      simp only [claimRedeemRequest, ok_bind, saving,
        matchWithdrawalEvent_of_fits (ready.fits payable ends)]
      exact ⟨saved, _, rfl⟩
  | succ depth induction =>
      simp only [claimRedeemRequest, ok_bind,
        matchWithdrawalEvent_of_fits (ready.fits payable ends)]
      split
      · rename_i continues
        obtain ⟨remains, counted⟩ := continues
        have inside : params.withdrawalEventId + 1 <
            next.withdrawalStack.length := by
          rw [ready.running.stack]
          exact counted.trans_le ready.counted
        have found := List.getElem?_eq_getElem inside
        have fetched : (next.afterPiece params).withdrawalStack[
            params.afterPiece.withdrawalEventId + 1]? = _ := found
        simp only [fetch, fetched, ok_bind]
        exact induction (ready.advance geometry remains counted found)
      · obtain ⟨saved, saving⟩ := ready.save
        simp only [saving, ok_bind]
        exact ⟨saved, _, rfl⟩

end Ready

theorem endPosition_lastWithdrawalEvent :
    manager.lastWithdrawalEvent.endPosition = manager.stackEnd := by
  unfold lastWithdrawalEvent stackEnd
  cases manager.withdrawalStack.getLast? <;> rfl

theorem Geometry.end_le_stackEnd (geometry : Geometry manager)
    (few : manager.withdrawalStack.length ≤ uint32Limit) :
    ∀ event ∈ manager.withdrawalStack,
      event.endPosition ≤ manager.stackEnd := by
  intro event member
  obtain ⟨id, found⟩ := List.mem_iff_getElem?.mp member
  have inside := (List.getElem?_eq_some_iff.mp found).1
  have amount : manager.eventAmounts[id]? = some event.amount := by
    simp [eventAmounts, found]
  calc
    event.endPosition = (manager.eventAmounts.take (id + 1)).sum := by
      rw [sum_take_succ amount,
        ← geometry.event_start id event (inside.trans_le few) found]
      rfl
    _ ≤ manager.eventAmounts.sum := sum_take_le _ _
    _ = manager.stackEnd := (geometry.stackEnd_eq few).symm

theorem Geometry.ends_below (geometry : Geometry manager)
    (few : manager.withdrawalStack.length ≤ uint32Limit)
    (last_fits : manager.lastWithdrawalEvent.endPosition < wordLimit) :
    ∀ event ∈ manager.withdrawalStack, event.endPosition < wordLimit := by
  rw [endPosition_lastWithdrawalEvent] at last_fits
  exact fun event member =>
    (geometry.end_le_stackEnd few event member).trans_lt last_fits

/-- A request that resolves to an event can be claimed, at every depth. -/
theorem claimRedeemRequests_of_resolved {E : Type} {river : RiverCalls E}
    {world : E} {redeemRequestId withdrawalEventId depth : Nat}
    {skipAlreadyClaimed : Bool} {request : RedeemRequest}
    {event : WithdrawalEvent}
    (solvent : Solvent manager 0) (geometry : Geometry manager)
    (payable : Payable manager)
    (fewRequests : manager.redeemQueue.length < uint32Limit)
    (fewEvents : manager.withdrawalStack.length < uint32Limit)
    (resolved : Resolved manager redeemRequestId withdrawalEventId request
      event)
    (recipientAllowed : river.isDenied world request.recipient = false)
    (initiatorAllowed : river.isDenied world request.initiator = false)
    (accepts : ∀ amount, ∃ worldAfter,
      river.call world request.recipient amount = some worldAfter) :
    ∃ after worldAfter statuses,
      claimRedeemRequests river world manager [redeemRequestId]
        [withdrawalEventId] skipAlreadyClaimed depth =
          .ok (after, worldAfter, statuses) := by
  obtain ⟨requestFound, unclaimed, eventFound, matching, last_fits⟩ :=
    resolved
  have requestInside := (List.getElem?_eq_some_iff.mp requestFound).1
  have eventInside := (List.getElem?_eq_some_iff.mp eventFound).1
  have ends := geometry.ends_below fewEvents.le last_fits
  obtain ⟨startsBeforeEnd, startsInside⟩ := (isMatch_ok matching).mp rfl
  obtain ⟨amountFits, productFits⟩ := payable.requests _
    (List.mem_of_getElem? requestFound)
  let call : ClaimCall :=
    { skipAlreadyClaimed := skipAlreadyClaimed
      depth := depth
      withdrawalEventCount := manager.withdrawalStack.length
      redeemRequestCount := manager.redeemQueue.length }
  have running : Solvent.Running manager request manager
      (initialParameters call request event redeemRequestId
        withdrawalEventId) :=
    Solvent.Running.start solvent requestFound eventFound
      (requestInside.trans fewRequests) fewEvents eventInside startsInside
  have ready : Ready manager request manager (initialParameters call request
      event redeemRequestId withdrawalEventId) :=
    ⟨running, Nat.le_refl _, rfl, startsBeforeEnd.le, unclaimed, productFits,
      (Nat.zero_add _).trans_lt amountFits⟩
  obtain ⟨saved, final, claimed⟩ : ∃ saved final,
      claimRedeemRequest depth manager (initialParameters call request event
        redeemRequestId withdrawalEventId) = .ok (saved, final) :=
    ready.claimRedeemRequest_returns geometry payable ends
  have covered := (Solvent.of_claimRedeemRequest solvent geometry requestFound
    eventFound (requestInside.trans fewRequests) fewEvents eventInside
    startsInside claimed).covered
  obtain ⟨stored, -, -, recipient, -⟩ := claimRedeemRequest_frame claimed
  obtain ⟨worldAfter, accepted⟩ := accepts final.ethAmount
  have enough : final.ethAmount ≤ saved.balance := by omega
  have paid : river.call world final.redeemRequest.recipient final.ethAmount =
      some worldAfter := by
    rw [recipient]
    exact accepted
  have claimed' : claimRedeemRequest depth manager
      { redeemRequest := request
        withdrawalEvent := event
        redeemRequestId := redeemRequestId
        withdrawalEventId := withdrawalEventId
        withdrawalEventCount := manager.withdrawalStack.length
        lsETHAmount := 0
        ethAmount := 0 } = .ok (saved, final) := claimed
  simp only [claimRedeemRequests, List.length_singleton, require_of trivial,
    toUint32_of_lt fewRequests, toUint32_of_lt fewEvents, ok_bind, claimAll,
    List.zip_cons_cons, List.zip_nil_right, claimOne,
    require_of requestInside, require_of eventInside, fetch, requestFound,
    require_of recipientAllowed, require_of initiatorAllowed,
    if_neg unclaimed, claimLoadedRequest, eventFound, matching,
    claimed', payRecipient, require_of enough, paid]
  exact ⟨_, _, _, rfl⟩

end RedeemManager

end RiverProtocol
