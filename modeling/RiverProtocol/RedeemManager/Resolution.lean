import RiverProtocol.RedeemManager.Claimable
import RiverProtocol.RedeemManager.Confluence

/-!
# Exact resolution

The loop of the dichotomic search never moves its lower bound past the
middle, so a window of two neighbouring events would repeat for ever.  It is
never entered: the events are contiguous, and a request between the starts of
two neighbours matches the first of them.
-/

namespace RiverProtocol

open Checked Outcome Lists

namespace RedeemManager

variable {manager : RedeemManager} {request : RedeemRequest}

/-- The event with this id matches the request. -/
def Matches (manager : RedeemManager) (request : RedeemRequest)
    (withdrawalEventId : Nat) : Prop :=
  ∃ event, manager.withdrawalStack[withdrawalEventId]? = some event ∧
    isMatch request event = .ok true

theorem isMatch_of_fits (request : RedeemRequest) {event : WithdrawalEvent}
    (fits : event.endPosition < wordLimit) :
    isMatch request event = .ok (decide (request.height < event.endPosition ∧
      request.height ≥ event.height)) := by
  rw [isMatch, uadd_of_lt fits]
  rfl

/-- At most one event matches. -/
theorem Matches.unique (geometry : Geometry manager)
    (few : manager.withdrawalStack.length ≤ uint32Limit) {id other : Nat}
    (matching : manager.Matches request id)
    (also : manager.Matches request other) : other = id := by
  obtain ⟨event, found, answer⟩ := matching
  obtain ⟨otherEvent, otherFound, otherAnswer⟩ := also
  have inside := (List.getElem?_eq_some_iff.mp found).1
  have otherInside := (List.getElem?_eq_some_iff.mp otherFound).1
  obtain ⟨below, above⟩ := (isMatch_ok answer).mp rfl
  obtain ⟨otherBelow, otherAbove⟩ := (isMatch_ok otherAnswer).mp rfl
  rcases Nat.lt_trichotomy id other with before | same | behind
  · have apart := geometry.consecutive.ordered (by omega) before found
      otherFound
    omega
  · exact same.symm
  · have apart := geometry.consecutive.ordered (by omega) behind otherFound
      found
    omega

theorem searchEvents_round {events : List WithdrawalEvent}
    {gas min max : Nat} {midEvent : WithdrawalEvent} (wide : min ≠ max)
    (found : events[(min + max) / 2]? = some midEvent)
    (fits : midEvent.endPosition < wordLimit) :
    searchEvents request events (gas + 1) min max =
      if midEvent.height ≤ request.height ∧
          request.height < midEvent.endPosition then .ok ((min + max) / 2)
      else if request.height < midEvent.height then
        searchEvents request events gas min ((min + max) / 2)
      else searchEvents request events gas ((min + max) / 2) max := by
  have fetched : fetch events ((min + max) / 2) (Error.panic .outOfBounds) =
      .ok midEvent := fetch_eq_ok.mpr found
  simp only [searchEvents, if_pos wide, fetched, ok_bind,
    isMatch_of_fits _ fits, decide_eq_true_eq, ge_iff_le, and_comm]
  rfl

/-- The first of two neighbours cannot end before a request that starts
before the second. -/
theorem Geometry.not_neighbours (geometry : Geometry manager)
    (few : manager.withdrawalStack.length ≤ uint32Limit)
    {min max : Nat} {minEvent maxEvent : WithdrawalEvent}
    (minFound : manager.withdrawalStack[min]? = some minEvent)
    (maxFound : manager.withdrawalStack[max]? = some maxEvent)
    (endsBefore : minEvent.endPosition ≤ request.height)
    (startsBefore : request.height < maxEvent.height) : min + 1 ≠ max := by
  rintro rfl
  have inside := (List.getElem?_eq_some_iff.mp maxFound).1
  have contiguous := geometry.event_next (by omega) minFound maxFound
  omega

/-- Each round at least halves the window, which never shrinks to two
neighbours. -/
theorem searchEvents_returns (geometry : Geometry manager)
    (few : manager.withdrawalStack.length ≤ uint32Limit)
    (ends : ∀ event ∈ manager.withdrawalStack, event.endPosition < wordLimit)
    {gas min max : Nat} {minEvent maxEvent : WithdrawalEvent}
    (minFound : manager.withdrawalStack[min]? = some minEvent)
    (maxFound : manager.withdrawalStack[max]? = some maxEvent)
    (endsBefore : minEvent.endPosition ≤ request.height)
    (startsBefore : request.height < maxEvent.height)
    (ordered : min < max) (enough : max - min ≤ 2 ^ gas) :
    ∃ position, searchEvents request manager.withdrawalStack gas min max =
      .ok position := by
  induction gas generalizing min max minEvent maxEvent with
  | zero =>
      have apart := geometry.not_neighbours few minFound maxFound endsBefore
        startsBefore
      rw [Nat.pow_zero] at enough
      omega
  | succ gas induction =>
      have apart := geometry.not_neighbours few minFound maxFound endsBefore
        startsBefore
      rw [Nat.pow_succ] at enough
      have inside := (List.getElem?_eq_some_iff.mp maxFound).1
      have midInside : (min + max) / 2 < manager.withdrawalStack.length := by
        omega
      have midFound := List.getElem?_eq_getElem midInside
      rw [searchEvents_round (Nat.ne_of_lt ordered) midFound
        (ends _ (List.getElem_mem midInside))]
      split
      · exact ⟨_, rfl⟩
      · split
        · rename_i before
          exact induction minFound midFound endsBefore before (by omega)
            (by omega)
        · rename_i fails later
          have passed := Nat.le_of_not_lt fun inside =>
            fails ⟨Nat.le_of_not_lt later, inside⟩
          exact induction midFound maxFound passed startsBefore (by omega)
            (by omega)

/-- A request that starts below the end of the last event is resolved. -/
theorem performDichotomicResolution_returns (geometry : Geometry manager)
    (few : manager.withdrawalStack.length ≤ uint32Limit)
    (ends : ∀ event ∈ manager.withdrawalStack, event.endPosition < wordLimit)
    (nonempty : manager.withdrawalStack.length ≠ 0)
    (reached : request.height < manager.lastWithdrawalEvent.endPosition)
    {gas : Nat} (enough : manager.withdrawalStack.length ≤ 2 ^ gas) :
    ∃ answer, manager.performDichotomicResolution gas request =
      .ok answer := by
  have maxInside : manager.withdrawalStack.length - 1 <
      manager.withdrawalStack.length := by omega
  have minInside : 0 < manager.withdrawalStack.length := by omega
  have maxFound := List.getElem?_eq_getElem maxInside
  have minFound := List.getElem?_eq_getElem minInside
  have maxFits := ends _ (List.getElem_mem maxInside)
  have minFits := ends _ (List.getElem_mem minInside)
  have last : manager.lastWithdrawalEvent = manager.withdrawalStack[
      manager.withdrawalStack.length - 1] := by
    rw [lastWithdrawalEvent, List.getLast?_eq_getElem?, maxFound]
    rfl
  rw [last] at reached
  rw [performDichotomicResolution, usub_of_le (by omega)]
  simp only [ok_bind, fetch_eq_ok.mpr maxFound, isMatch_of_fits _ maxFits,
    fetch_eq_ok.mpr minFound, isMatch_of_fits _ minFits, decide_eq_true_eq]
  split
  · exact ⟨_, rfl⟩
  · rename_i maxFails
    split
    · exact ⟨_, rfl⟩
    · rename_i minFails
      have first := geometry.event_start 0 _ (by decide) minFound
      rw [List.take_zero, List.sum_nil] at first
      have endsBefore := Nat.le_of_not_lt fun inside =>
        minFails ⟨inside, by omega⟩
      have startsBefore := Nat.lt_of_not_le fun later =>
        maxFails ⟨reached, later⟩
      have several : 0 < manager.withdrawalStack.length - 1 := by
        by_contra single
        have same : manager.withdrawalStack.length - 1 = 0 := by omega
        simp only [same] at startsBefore
        omega
      obtain ⟨position, found⟩ := searchEvents_returns geometry few ends
        minFound maxFound endsBefore startsBefore several
        (by omega : _ ≤ 2 ^ gas)
      exact ⟨position, by rw [found]; rfl⟩

/-- The answer is the id of the one matching event, or `resolveUnsatisfied`
where no event matches. -/
structure Resolves (manager : RedeemManager) (request : RedeemRequest)
    (answer : Int) : Prop where
  matched : ∀ withdrawalEventId : Nat, answer = withdrawalEventId ↔
    manager.Matches request withdrawalEventId ∧
      ∀ other, manager.Matches request other → other = withdrawalEventId
  unsatisfied : answer = resolveUnsatisfied ↔
    ∀ withdrawalEventId, ¬ manager.Matches request withdrawalEventId

theorem Resolves.of_match (geometry : Geometry manager)
    (few : manager.withdrawalStack.length ≤ uint32Limit) {id : Nat}
    (matching : manager.Matches request id) :
    manager.Resolves request id where
  matched := by
    intro other
    constructor
    · intro same
      obtain rfl : id = other := Int.ofNat_inj.mp same
      exact ⟨matching, fun another => matching.unique geometry few⟩
    · rintro ⟨also, -⟩
      rw [matching.unique geometry few also]
  unsatisfied := by
    constructor
    · intro negative
      exact absurd negative (by simp [resolveUnsatisfied])
    · intro unmatched
      exact absurd matching (unmatched id)

theorem Resolves.of_none
    (unmatched : ∀ id, ¬ manager.Matches request id) :
    manager.Resolves request resolveUnsatisfied where
  matched := by
    intro id
    constructor
    · intro negative
      exact absurd negative.symm (by simp [resolveUnsatisfied])
    · rintro ⟨matching, -⟩
      exact absurd matching (unmatched id)
  unsatisfied := ⟨fun _ => unmatched, fun _ => rfl⟩

section Resolution

variable (geometry : Geometry manager)
  (few : manager.withdrawalStack.length ≤ uint32Limit)

include geometry few

theorem not_matches_of_end_le (ended : manager.stackEnd ≤ request.height)
    (id : Nat) : ¬ manager.Matches request id := by
  rintro ⟨event, found, answer⟩
  obtain ⟨above, -⟩ := (isMatch_ok answer).mp rfl
  have below := geometry.end_le_stackEnd few event
    (List.mem_of_getElem? found)
  omega

theorem resolveRedeemRequestId_exact {gas redeemRequestId : Nat}
    (fits : manager.stackEnd < wordLimit)
    (found : manager.redeemQueue[redeemRequestId]? = some request)
    (unclaimed : request.amount ≠ 0)
    (enough : manager.withdrawalStack.length ≤ 2 ^ gas) :
    ∃ answer, manager.resolveRedeemRequestId gas redeemRequestId
        manager.lastWithdrawalEvent = .ok answer ∧
      manager.Resolves request answer := by
  have last_fits : manager.lastWithdrawalEvent.endPosition < wordLimit := by
    rw [endPosition_lastWithdrawalEvent]
    exact fits
  have added := uadd_of_lt (ε := Error) last_fits
  simp only [resolveRedeemRequestId, found, if_neg unclaimed]
  split
  · rename_i empty
    refine ⟨_, rfl, .of_none ?_⟩
    rintro id ⟨event, eventFound, -⟩
    have inside := (List.getElem?_eq_some_iff.mp eventFound).1
    omega
  · rename_i nonempty
    rw [added, ok_bind]
    split
    · rename_i ended
      have stackEnded : manager.stackEnd ≤ request.height := by
        rw [← endPosition_lastWithdrawalEvent]
        exact ended
      exact ⟨_, rfl,
        .of_none (not_matches_of_end_le geometry few stackEnded)⟩
    · rename_i reached
      have reached := Nat.lt_of_not_le reached
      obtain ⟨answer, returned⟩ := performDichotomicResolution_returns
        geometry few (geometry.ends_below few last_fits) nonempty reached
        enough
      obtain ⟨position, event, rfl, eventFound, matching⟩ :=
        performDichotomicResolution_ok geometry reached returned
      exact ⟨_, returned,
        .of_match geometry few ⟨event, eventFound, matching⟩⟩

omit geometry few in
/-- Past 256 bits the comparison with the end of the last event reverts. -/
theorem resolveRedeemRequestId_overflow {gas redeemRequestId : Nat}
    (unfit : wordLimit ≤ manager.stackEnd)
    (found : manager.redeemQueue[redeemRequestId]? = some request)
    (unclaimed : request.amount ≠ 0) :
    manager.resolveRedeemRequestId gas redeemRequestId
        manager.lastWithdrawalEvent = .error (.panic .overflow) := by
  have nonempty : manager.withdrawalStack.length ≠ 0 := by
    intro empty
    rw [stackEnd, List.eq_nil_of_length_eq_zero empty] at unfit
    exact absurd unfit (by decide)
  rw [← endPosition_lastWithdrawalEvent] at unfit
  have added : (uadd manager.lastWithdrawalEvent.height
      manager.lastWithdrawalEvent.amount : Except Error Nat) =
        .error (.panic .overflow) := uadd_eq_error.mpr ⟨unfit, rfl⟩
  simp only [resolveRedeemRequestId, found, if_neg unclaimed,
    if_neg nonempty, added]
  rfl

end Resolution

/-- Only the check before it compares a request with an event. -/
theorem claimRedeemRequest_ne_mismatch {depth id other : Nat}
    {params : ClaimParameters} : claimRedeemRequest depth manager params ≠
      .error (.doesNotMatch id other) := by
  intro failed
  obtain ⟨reason, panics⟩ := claimRedeemRequest_error failed
  exact nomatch panics

theorem payRecipient_ne_mismatch {E : Type} {river : RiverCalls E}
    {world : E} {recipient : Address} {ethAmount id other : Nat} :
    payRecipient river world manager recipient ethAmount ≠
      .error (.doesNotMatch id other) := by
  intro failed
  simp only [payRecipient, bind_eq_error, require_eq_error, reduceCtorEq,
    and_false, false_or] at failed
  obtain ⟨-, -, failed⟩ := failed
  split at failed <;> simp only [pure_eq_error, Except.error.injEq,
    reduceCtorEq] at failed

/-- A claim of an open request names an event that does not match exactly
when it stops with `DoesNotMatch`. -/
theorem claimRedeemRequests_mismatch_iff {E : Type} {river : RiverCalls E}
    {world : E} {redeemRequestId withdrawalEventId depth : Nat}
    {skipAlreadyClaimed : Bool}
    (ends : ∀ event ∈ manager.withdrawalStack, event.endPosition < wordLimit)
    (fewRequests : manager.redeemQueue.length < uint32Limit)
    (fewEvents : manager.withdrawalStack.length < uint32Limit)
    (found : manager.redeemQueue[redeemRequestId]? = some request)
    (unclaimed : request.amount ≠ 0)
    (recipientAllowed : river.isDenied world request.recipient = false)
    (initiatorAllowed : river.isDenied world request.initiator = false)
    (inside : withdrawalEventId < manager.withdrawalStack.length) :
    claimRedeemRequests river world manager [redeemRequestId]
        [withdrawalEventId] skipAlreadyClaimed depth =
        .error (.doesNotMatch redeemRequestId withdrawalEventId) ↔
      ¬ manager.Matches request withdrawalEventId := by
  have requestInside := (List.getElem?_eq_some_iff.mp found).1
  have eventFound := List.getElem?_eq_getElem inside
  have answered := isMatch_of_fits request
    (ends _ (List.getElem_mem inside))
  have matches_iff : manager.Matches request withdrawalEventId ↔
      isMatch request manager.withdrawalStack[withdrawalEventId] =
        .ok true := by
    simp [Matches, eventFound]
  rw [matches_iff, answered, Except.ok.injEq]
  simp only [claimRedeemRequests, claimAll, claimOne, claimLoadedRequest,
    List.zip_cons_cons, List.zip_nil_right, toUint32_of_lt fewRequests,
    toUint32_of_lt fewEvents, fetch_eq_ok.mpr found,
    fetch_eq_ok.mpr eventFound, require_of requestInside, require_of inside,
    require_of recipientAllowed, require_of initiatorAllowed, ok_bind,
    if_neg unclaimed, answered, bind_eq_error, require_eq_error,
    claimRedeemRequest_ne_mismatch, payRecipient_ne_mismatch, pure_eq_error,
    or_false, and_false, exists_false, and_true, List.length_singleton,
    require_of]

theorem resolveRedeemRequestId_returns {gas redeemRequestId : Nat}
    (geometry : Geometry manager)
    (few : manager.withdrawalStack.length ≤ uint32Limit)
    (enough : manager.withdrawalStack.length ≤ 2 ^ gas) :
    (∃ answer, manager.resolveRedeemRequestId gas redeemRequestId
        manager.lastWithdrawalEvent = .ok answer) ∨
      wordLimit ≤ manager.stackEnd ∧
        manager.resolveRedeemRequestId gas redeemRequestId
          manager.lastWithdrawalEvent = .error (.panic .overflow) := by
  cases found : manager.redeemQueue[redeemRequestId]? with
  | none => exact .inl ⟨_, by simp only [resolveRedeemRequestId, found]; rfl⟩
  | some request =>
      by_cases claimed : request.amount = 0
      · refine .inl ⟨resolveFullyClaimed, ?_⟩
        simp only [resolveRedeemRequestId, found, if_pos claimed]
        rfl
      · rcases Nat.lt_or_ge manager.stackEnd wordLimit with fits | unfit
        · obtain ⟨answer, returned, -⟩ := resolveRedeemRequestId_exact
            geometry few fits found claimed enough
          exact .inl ⟨answer, returned⟩
        · exact .inr ⟨unfit,
            resolveRedeemRequestId_overflow unfit found claimed⟩

/-- Every batch is answered exactly, after at most as many rounds of the
search as the number of events has bits; only where the positions of the stack
have left 256 bits does a batch with an open request revert. -/
theorem resolution_exact (reachable : Reachable manager)
    (fewRequests : manager.redeemQueue.length < uint32Limit)
    (fewEvents : manager.withdrawalStack.length < uint32Limit) {gas : Nat}
    (enough : manager.withdrawalStack.length ≤ 2 ^ gas)
    (redeemRequestIds : List Nat) :
    (manager.stackEnd < wordLimit →
      ∃ answers,
        manager.resolveRedeemRequests gas redeemRequestIds = .ok answers ∧
        List.Forall₂ (fun redeemRequestId (answer : Int) => ∀ request,
          manager.redeemQueue[redeemRequestId]? = some request →
          request.amount ≠ 0 →
          manager.Resolves request answer ∧
            ∀ {E : Type} (river : RiverCalls E) (world : E)
              (skipAlreadyClaimed : Bool) (depth withdrawalEventId : Nat),
              river.isDenied world request.recipient = false →
              river.isDenied world request.initiator = false →
              withdrawalEventId < manager.withdrawalStack.length →
              (claimRedeemRequests river world manager [redeemRequestId]
                  [withdrawalEventId] skipAlreadyClaimed depth ≠
                  .error (.doesNotMatch redeemRequestId withdrawalEventId) ↔
                answer = withdrawalEventId))
          redeemRequestIds answers) ∧
    (wordLimit ≤ manager.stackEnd →
      (∃ redeemRequestId ∈ redeemRequestIds, ∃ request,
        manager.redeemQueue[redeemRequestId]? = some request ∧
          request.amount ≠ 0) →
      manager.resolveRedeemRequests gas redeemRequestIds =
        .error (.panic .overflow)) := by
  have geometry := Geometry.of_reachable reachable
  have few := Nat.le_of_lt fewEvents
  refine ⟨fun fits => ?_, fun unfit => ?_⟩
  · have ends := fun event member =>
      (geometry.end_le_stackEnd few event member).trans_lt fits
    have each : ∀ redeemRequestId ∈ redeemRequestIds, ∃ answer,
        manager.resolveRedeemRequestId gas redeemRequestId
          manager.lastWithdrawalEvent = .ok answer := by
      intro redeemRequestId member
      rcases resolveRedeemRequestId_returns geometry few enough with
        returned | ⟨unfit, -⟩
      · exact returned
      · exact absurd fits (Nat.not_lt.mpr unfit)
    obtain ⟨answers, returned, related⟩ := mapM_returns each
    refine ⟨answers, returned, related.imp ?_⟩
    intro redeemRequestId answer resolved request found unclaimed
    obtain ⟨exactly, returned, resolves⟩ := resolveRedeemRequestId_exact
      geometry few fits found unclaimed enough
    obtain rfl : exactly = answer :=
      Except.ok.inj (returned.symm.trans resolved)
    refine ⟨resolves, ?_⟩
    intro E river world skipAlreadyClaimed depth withdrawalEventId
      recipientAllowed initiatorAllowed inside
    rw [ne_eq, claimRedeemRequests_mismatch_iff ends fewRequests fewEvents
      found unclaimed recipientAllowed initiatorAllowed inside, not_not]
    constructor
    · intro matching
      exact (resolves.matched _).mpr
        ⟨matching, fun other => matching.unique geometry few⟩
    · intro same
      exact ((resolves.matched _).mp same).1
  · rintro ⟨redeemRequestId, member, request, found, unclaimed⟩
    refine mapM_fails ?_ ⟨redeemRequestId, member,
      resolveRedeemRequestId_overflow unfit found unclaimed⟩
    intro other _
    exact (resolveRedeemRequestId_returns geometry few enough).imp_right
      And.right

/-- Around the partly claimed request, which starts at 4: an event of amount 0
at 4, the event that matches, and one after it. -/
def reportedAround : Except Error RedeemManager := do
  let manager ← reportWithdraw partlyClaimed 0 1
  let manager ← reportWithdraw manager 3 3
  reportWithdraw manager 1 1

theorem resolution_exact_sample : ∃ manager answers,
    reportedAround = .ok manager ∧
      manager.resolveRedeemRequests 2 [0, 1] = .ok answers ∧
      answers = [2, resolveOutOfBounds] := by
  have checked : returns reportedAround (fun manager =>
      manager.redeemQueue.length = 1 && manager.withdrawalStack.length = 4 &&
        manager.stackEnd = 8 &&
        returns (manager.resolveRedeemRequests 2 [0, 1]) fun answers =>
          answers = [2, resolveOutOfBounds]) = true := by
    decide +kernel
  obtain ⟨manager, returned, passed⟩ := returns_iff.mp checked
  simp only [Bool.and_eq_true, decide_eq_true_eq] at passed
  obtain ⟨⟨⟨requests, events⟩, ends⟩, resolved⟩ := passed
  have reachable : Reachable manager := by
    simp only [reportedAround, bind_eq_ok] at returned
    obtain ⟨_, first, _, second, third⟩ := returned
    exact ((partlyClaimed_reachable.tail (.reportWithdraw first)).tail
      (.reportWithdraw second)).tail (.reportWithdraw third)
  have rounds : manager.withdrawalStack.length ≤ 2 ^ 2 := by
    rw [events]
    decide
  obtain ⟨answers, answered, -⟩ := (resolution_exact reachable
    (by rw [requests]; decide) (by rw [events]; decide) rounds
    [0, 1]).1 (by rw [ends]; decide)
  rw [answered] at resolved
  exact ⟨manager, answers, returned, answered, by simpa [returns] using resolved⟩

end RedeemManager

end RiverProtocol
