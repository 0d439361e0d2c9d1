import RiverProtocol.System.Logs

/-!
# Claim recipients that call back

The payment of a claim runs the code of its recipient, which may call the
contracts again, claims among the calls, before the loop of the outer claim
goes on.  Whatever recipients do, the outcome is that of calls made one after
another: each pair of ids of a claim a call of its own, in the order in which
the payments were made.
-/

namespace RiverProtocol

open Checked Outcome

namespace System

section Calls

variable (deployment : Deployment) (system : System)

/-- The loop body of `_claimRedeemRequests` up to the payment, which leaves
the contract.  The allowlist and the counts are those read before the loop. -/
def beginClaim (call : RedeemManager.ClaimCall) (allowlist : Address)
    (redeemRequestId withdrawalEventId : Nat) :
    Except Error (System × Option RedeemManager.ClaimParameters) := do
  require (redeemRequestId < call.redeemRequestCount)
    (.redeemRequestOutOfBounds redeemRequestId)
  require (withdrawalEventId < call.withdrawalEventCount)
    (.withdrawalEventOutOfBounds withdrawalEventId)
  let redeemRequest ← fetch system.redeemManager.redeemQueue redeemRequestId
    (.panic .outOfBounds)
  let denies := (system.allowlists allowlist).isDenied
  require (denies redeemRequest.recipient = false) .claimRecipientIsDenied
  require (denies redeemRequest.initiator = false) .claimInitiatorIsDenied
  if redeemRequest.amount = 0 then do
    require (call.skipAlreadyClaimed = true)
      (.redeemRequestAlreadyClaimed redeemRequestId)
    return (system, none)
  else do
    let withdrawalEvent ← fetch system.redeemManager.withdrawalStack
      withdrawalEventId (.panic .outOfBounds)
    let matching ← RedeemManager.isMatch redeemRequest withdrawalEvent
    require (matching = true)
      (.doesNotMatch redeemRequestId withdrawalEventId)
    let (manager, params) ← RedeemManager.claimRedeemRequest call.depth
      system.redeemManager (RedeemManager.initialParameters call redeemRequest
        withdrawalEvent redeemRequestId withdrawalEventId)
    let recipient := params.redeemRequest.recipient
    require (params.ethAmount ≤ manager.balance)
      (.claimRedeemFailed recipient .insufficientBalance)
    return ({ system with
      redeemManager := { manager with
        balance := manager.balance - params.ethAmount
        transfers := manager.transfers ++
          [.claimPayment recipient params.ethAmount] } }, some params)

/-- The rest of the loop body, back from the payment. -/
def endClaim (params : RedeemManager.ClaimParameters) : System :=
  { system with
    redeemManager := system.redeemManager.emit (.claimedRedeemRequest
      params.redeemRequestId params.redeemRequest.recipient params.ethAmount
      params.lsETHAmount params.redeemRequest.amount) }

/-- What `_claimRedeemRequests` reads before its loop. -/
def claimCall (skipAlreadyClaimed : Bool) (depth : Nat) :
    RedeemManager.ClaimCall :=
  { skipAlreadyClaimed
    depth
    withdrawalEventCount := toUint32 system.redeemManager.withdrawalStack.length
    redeemRequestCount := toUint32 system.redeemManager.redeemQueue.length }

end Calls

/-- What is being run: the code of a recipient, or the loop of a claim over
what is left of its ids. -/
inductive Activity where
  | callback
  | claims (sender : Address) (call : RedeemManager.ClaimCall)
      (allowlist : Address) (pairs : List (Nat × Nat))

/-- Runs of recipients and of the claims they come from.  A callback makes any
steps that leave River's allowlist in its place, and any claims; a call of a
callback that reverts leaves no trace. -/
inductive Runs (deployment : Deployment) : Activity → System → System → Prop
    where
  | done {system : System} : Runs deployment .callback system system
  | step {system next after : System} : Step deployment system next →
      next.river.config.allowlist = system.river.config.allowlist →
      Runs deployment .callback next after →
      Runs deployment .callback system after
  | claim {system next after : System} {sender : Address}
      {skipAlreadyClaimed : Bool} {depth : Nat} {pairs : List (Nat × Nat)} :
      deployment.External sender →
      Runs deployment (.claims sender (system.claimCall skipAlreadyClaimed depth)
        system.river.config.allowlist pairs) system next →
      Runs deployment .callback next after →
      Runs deployment .callback system after
  | nil {system : System} {sender : Address}
      {call : RedeemManager.ClaimCall} {allowlist : Address} :
      Runs deployment (.claims sender call allowlist []) system system
  | skipped {system next after : System} {sender allowlist : Address}
      {call : RedeemManager.ClaimCall} {redeemRequestId withdrawalEventId : Nat}
      {pairs : List (Nat × Nat)} :
      system.beginClaim call allowlist redeemRequestId withdrawalEventId =
        .ok (next, none) →
      Runs deployment (.claims sender call allowlist pairs) next after →
      Runs deployment (.claims sender call allowlist
        ((redeemRequestId, withdrawalEventId) :: pairs)) system after
  | paid {system paid returned after : System} {sender allowlist : Address}
      {call : RedeemManager.ClaimCall}
      {redeemRequestId withdrawalEventId : Nat}
      {params : RedeemManager.ClaimParameters} {pairs : List (Nat × Nat)} :
      system.beginClaim call allowlist redeemRequestId withdrawalEventId =
        .ok (paid, some params) →
      deployment.External params.redeemRequest.recipient →
      Runs deployment .callback paid returned →
      Runs deployment (.claims sender call allowlist pairs)
        (returned.endClaim params) after →
      Runs deployment (.claims sender call allowlist
        ((redeemRequestId, withdrawalEventId) :: pairs)) system after
  -- River takes ether through `receive`, which calls nobody back
  | deposited {system paid after : System} {river : River}
      {sender allowlist : Address} {call : RedeemManager.ClaimCall}
      {redeemRequestId withdrawalEventId : Nat}
      {params : RedeemManager.ClaimParameters} {pairs : List (Nat × Nat)} :
      system.beginClaim call allowlist redeemRequestId withdrawalEventId =
        .ok (paid, some params) →
      params.redeemRequest.recipient = deployment.river →
      paid.river.deposit paid.allowlist deployment.redeemManager
        params.ethAmount = .ok river →
      Runs deployment (.claims sender call allowlist pairs)
        ({ paid with river := river }.endClaim params) after →
      Runs deployment (.claims sender call allowlist
        ((redeemRequestId, withdrawalEventId) :: pairs)) system after

/-- A transaction: a step, or a claim whose recipients call back. -/
inductive Transaction (deployment : Deployment) : System → System → Prop where
  | step {system after : System} : Step deployment system after →
      Transaction deployment system after
  | claim {system after : System} {sender : Address}
      {skipAlreadyClaimed : Bool} {depth : Nat}
      {redeemRequestIds withdrawalEventIds : List Nat} :
      deployment.External sender →
      redeemRequestIds.length = withdrawalEventIds.length →
      Runs deployment (.claims sender (system.claimCall skipAlreadyClaimed depth)
        system.river.config.allowlist
        (redeemRequestIds.zip withdrawalEventIds)) system after →
      Transaction deployment system after

end System

namespace RedeemManager

/-- The queue and the stack never lose an entry, and a request its owners. -/
structure Grows (manager after : RedeemManager) : Prop where
  owners : ∀ (id : Nat) (request : RedeemRequest),
    manager.redeemQueue[id]? = some request →
    ∃ later, after.redeemQueue[id]? = some later ∧
      later.recipient = request.recipient ∧
      later.initiator = request.initiator
  stack : manager.withdrawalStack.length ≤ after.withdrawalStack.length

variable {manager next after : RedeemManager}

theorem Grows.queue (grows : Grows manager after) :
    manager.redeemQueue.length ≤ after.redeemQueue.length := by
  by_contra shorter
  have inside := Nat.lt_of_not_le shorter
  obtain ⟨later, found, -⟩ :=
    grows.owners _ _ (List.getElem?_eq_getElem inside)
  exact Nat.lt_irrefl _ (List.getElem?_eq_some_iff.mp found).1

theorem Grows.of_kept (queue : after.redeemQueue = manager.redeemQueue)
    (stack : manager.withdrawalStack.length ≤ after.withdrawalStack.length) :
    Grows manager after := by
  refine ⟨?_, stack⟩
  intro id request found
  exact ⟨request, queue ▸ found, rfl, rfl⟩

theorem Grows.refl : Grows manager manager := .of_kept rfl le_rfl

theorem Grows.trans (first : Grows manager next) (second : Grows next after) :
    Grows manager after := by
  refine ⟨?_, first.stack.trans second.stack⟩
  intro id request found
  obtain ⟨middle, foundMiddle, recipient, initiator⟩ :=
    first.owners id request found
  obtain ⟨later, foundLater, recipientLater, initiatorLater⟩ :=
    second.owners id middle foundMiddle
  exact ⟨later, foundLater, recipientLater.trans recipient,
    initiatorLater.trans initiator⟩

/-- A claim saves its request under the same owners. -/
theorem Grows.of_saved {id : Nat} {stored : RedeemRequest}
    {final : ClaimParameters}
    (found : manager.redeemQueue[id]? = some stored)
    (queue : after.redeemQueue =
      manager.redeemQueue.set id (savedRequest stored final))
    (stack : after.withdrawalStack = manager.withdrawalStack) :
    Grows manager after := by
  refine ⟨?_, (congrArg List.length stack).ge⟩
  intro position request held
  rw [queue]
  by_cases same : id = position
  · subst same
    obtain rfl := Option.some.inj (found.symm.trans held)
    exact ⟨_, List.getElem?_set_self (List.getElem?_eq_some_iff.mp found).1,
      rfl, rfl⟩
  · exact ⟨request, (List.getElem?_set_ne same).trans held, rfl, rfl⟩

theorem claimRedeemRequests_grows {E : Type} {river : RiverCalls E}
    {world worldAfter : E} {redeemRequestIds withdrawalEventIds : List Nat}
    {skipAlreadyClaimed : Bool} {depth : Nat} {statuses : List ClaimStatus}
    (returned : claimRedeemRequests river world manager redeemRequestIds
      withdrawalEventIds skipAlreadyClaimed depth =
      .ok (after, worldAfter, statuses)) : Grows manager after := by
  refine claimRedeemRequests_induction
    (motive := fun next => Grows manager next) ?_ .refl returned
  intro call world worldAfter before next id event _ _ grows run
  exact grows.trans (.of_saved run.requestFound run.queue_set run.stack_same)

/-- The parameters with another count of events. -/
def ClaimParameters.counting (count : Nat) (params : ClaimParameters) :
    ClaimParameters :=
  { params with withdrawalEventCount := count }

theorem matchWithdrawalEvent_counting (count : Nat)
    {matched : RedeemManager} {params next : ClaimParameters}
    (matching : matchWithdrawalEvent manager params = .ok (matched, next)) :
    matchWithdrawalEvent manager (params.counting count) =
      .ok (matched, next.counting count) := by
  have counting : matchWithdrawalEvent manager (params.counting count) =
      (matchWithdrawalEvent manager params).map fun result =>
          (result.1, result.2.counting count) := by
    simp only [matchWithdrawalEvent, Outcome.map_bind]
    rfl
  rw [counting, matching]
  rfl

theorem claimRedeemRequest_zero {matched : RedeemManager}
    {params next : ClaimParameters}
    (matching : matchWithdrawalEvent manager params = .ok (matched, next)) :
    claimRedeemRequest 0 manager params = (do
      let saved ← saveRedeemRequest matched next
      return (saved, next)) := by
  rw [claimRedeemRequest, matching]
  rfl

theorem claimRedeemRequest_succ {depth : Nat} {matched : RedeemManager}
    {params next : ClaimParameters}
    (matching : matchWithdrawalEvent manager params = .ok (matched, next)) :
    claimRedeemRequest (depth + 1) manager params =
      if next.redeemRequest.amount > 0 ∧
          next.withdrawalEventId + 1 < next.withdrawalEventCount then do
        let withdrawalEvent ← fetch matched.withdrawalStack
          (next.withdrawalEventId + 1) (.panic .outOfBounds)
        claimRedeemRequest depth matched (next.withNextEvent withdrawalEvent)
      else do
        let saved ← saveRedeemRequest matched next
        return (saved, next) := by
  rw [claimRedeemRequest, matching]
  rfl

theorem claimRedeemRequest_stops {depth : Nat} {matched : RedeemManager}
    {params next : ClaimParameters}
    (matching : matchWithdrawalEvent manager params = .ok (matched, next))
    (saving : saveRedeemRequest matched next = .ok after)
    (ends : next.redeemRequest.amount > 0 → depth = 0) :
    claimRedeemRequest depth manager params = .ok (after, next) := by
  cases depth with
  | zero =>
      rw [claimRedeemRequest_zero matching, saving]
      rfl
  | succ depth =>
      rw [claimRedeemRequest_succ matching, if_neg, saving]
      · rfl
      · intro continues
        exact absurd (ends continues.1) (Nat.succ_ne_zero depth)

/-- A claim told of fewer events than there are stops where a claim of a
smaller depth does. -/
theorem claimRedeemRequest_counting {depth count : Nat}
    {params last : ClaimParameters}
    (returned : claimRedeemRequest depth manager params = .ok (after, last))
    (counted : params.withdrawalEventId < params.withdrawalEventCount)
    (more : params.withdrawalEventCount ≤ count) :
    claimRedeemRequest
        (min depth (params.withdrawalEventCount - 1 -
          params.withdrawalEventId)) manager (params.counting count) =
      .ok (after, last.counting count) := by
  induction depth generalizing manager params with
  | zero =>
      simp only [claimRedeemRequest, bind_eq_ok, pure_eq_ok, Prod.mk.injEq,
        Prod.exists] at returned
      obtain ⟨matched, next, matching, saved, saving, rfl, rfl⟩ := returned
      exact claimRedeemRequest_stops
        (matchWithdrawalEvent_counting count matching) saving
        fun _ => Nat.zero_min _
  | succ depth ih =>
      obtain ⟨⟨matched, next⟩, matching, -⟩ := bind_eq_ok.mp returned
      obtain ⟨-, -, -, -, rfl⟩ := matchWithdrawalEvent_ok matching
      have counting := matchWithdrawalEvent_counting count matching
      have idEq : params.afterPiece.withdrawalEventId =
          params.withdrawalEventId := rfl
      have countEq : params.afterPiece.withdrawalEventCount =
          params.withdrawalEventCount := rfl
      rw [claimRedeemRequest_succ matching] at returned
      split at returned
      · rename_i continues
        simp only [bind_eq_ok, fetch_eq_ok] at returned
        obtain ⟨event, found, returned⟩ := returned
        have less : min (depth + 1) (params.withdrawalEventCount - 1 -
            params.withdrawalEventId) =
            min depth (params.withdrawalEventCount - 1 -
              (params.withdrawalEventId + 1)) + 1 := by
          omega
        have fetched : fetch matched.withdrawalStack
            ((params.afterPiece.counting count).withdrawalEventId + 1)
            (Error.panic .outOfBounds) = .ok event := fetch_eq_ok.mpr found
        rw [less, claimRedeemRequest_succ counting,
          if_pos ⟨continues.1, continues.2.trans_le more⟩]
        refine bind_eq_ok.mpr ⟨event, fetched, ?_⟩
        exact ih returned continues.2 more
      · rename_i ends
        simp only [bind_eq_ok, pure_eq_ok, Prod.mk.injEq] at returned
        obtain ⟨saved, saving, rfl, rfl⟩ := returned
        refine claimRedeemRequest_stops counting saving fun some => ?_
        have : ¬ params.afterPiece.withdrawalEventId + 1 <
            params.afterPiece.withdrawalEventCount :=
          fun later => ends ⟨some, later⟩
        omega

end RedeemManager

namespace System

variable {deployment : Deployment} {system next after : System}

theorem requestRedeemBy_grows {sender recipient initiator : Address}
    {lsETHAmount id : Nat}
    (returned : system.requestRedeemBy deployment sender lsETHAmount recipient
      initiator = .ok (after, id)) :
    system.redeemManager.Grows after.redeemManager := by
  obtain ⟨river, manager, -, requested, rfl⟩ := requestRedeemBy_ok returned
  obtain ⟨-, -, -, -, height, maximum, -, -, -, rfl⟩ :=
    RedeemManager.requestRedeem_eq_ok.mp requested
  refine ⟨?_, le_rfl⟩
  intro id request found
  have inside := (List.getElem?_eq_some_iff.mp found).1
  exact ⟨request, (List.getElem?_append_left inside).trans found, rfl, rfl⟩

theorem Operation.grows (operation : Operation deployment system after) :
    system.redeemManager.Grows after.redeemManager := by
  cases operation with
  | requestRedeem external returned =>
      obtain ⟨_, rfl, -, requested⟩ := requestRedeem_ok returned
      have grows := requestRedeemBy_grows requested
      exact grows
  | requestRedeemFor external returned =>
      exact requestRedeemBy_grows (requestRedeemFor_ok returned)
  | requestRedeemSelf external returned =>
      exact requestRedeemBy_grows (requestRedeemSelf_ok returned)
  | claimRedeemRequests external returned =>
      simp only [System.claimRedeemRequests, bind_eq_ok, pure_eq_ok,
        Prod.mk.injEq, Prod.exists] at returned
      obtain ⟨manager, world, answers, claimed, rfl, -⟩ := returned
      exact RedeemManager.claimRedeemRequests_grows claimed
  | wrap external returned =>
      obtain ⟨wlseth, river, -, rfl⟩ := wrap_ok returned
      exact .refl
  | unwrap external returned =>
      obtain ⟨wlseth, river, -, rfl⟩ := unwrap_ok returned
      exact .refl
  | depositToConsensusLayer external returned =>
      obtain ⟨registry, validators, -, -, -, rfl⟩ :=
        depositToConsensusLayer_moves returned
      exact .refl
  | _ => exact .refl

/-- Before its withdrawal step a report only takes from the buffer. -/
theorem prepareReport_grows {funds : ExternalFunds} {timestamp : Nat}
    {sender : Address} {report : ConsensusLayerReport}
    {increase : River.ReportIncrease} {trace : ReportingTrace}
    (returned : system.prepareReport funds timestamp sender report =
      .ok (after, increase, trace)) :
    system.redeemManager.Grows after.redeemManager := by
  simp only [prepareReport, bind_eq_ok, pure_eq_ok, Prod.mk.injEq,
    Prod.exists] at returned
  obtain ⟨_, -, _, -, applied, applying, _, -, rewards, available, -, pulled,
    _, pulling, river, -, requested, requesting, rfl, -, -⟩ := returned
  obtain ⟨-, rfl⟩ := applyReport_ok applying
  obtain ⟨manager, pulls, rfl⟩ := pullWithin_ok pulling
  obtain ⟨-, -, sent⟩ := RedeemManager.pullExceedingEth_ok pulls.exceeding
  have requests : requested.redeemManager = manager := by
    simp only [requestExitsBasedOnRedeemDemandAfterRebalancings, bind_eq_ok]
      at requesting
    obtain ⟨registry, -, requesting⟩ := requesting
    split at requesting
    · exact (congrArg System.redeemManager
        (pure_eq_ok.mp requesting)).symm
    · obtain ⟨_, _, -, -, rfl⟩ := requestExits_ok requesting
      rfl
  rw [requests, sent]
  exact .of_kept rfl le_rfl

theorem report_grows {funds : ExternalFunds} {timestamp : Nat}
    {sender : Address} {report : ConsensusLayerReport}
    {trace : ReportingTrace}
    (returned : system.setConsensusLayerData deployment funds timestamp sender
      report = .ok (after, trace)) :
    system.redeemManager.Grows after.redeemManager := by
  obtain ⟨prepared, increase, preparing, finishing⟩ :=
    setConsensusLayerData_ok returned
  refine (prepareReport_grows preparing).trans ?_
  obtain ⟨withdrawn, deposits, withdrawing, -, rfl⟩ :=
    finishReport_ok finishing
  rcases reportWithdrawToRedeemManager_ok withdrawing with
    ⟨rfl, -⟩ | ⟨amount, eth, withdrawal⟩
  · exact .refl
  · obtain ⟨-, -, height, -, reported⟩ :=
      RedeemManager.reportWithdraw_ok withdrawal.reported
    have grows : prepared.redeemManager.Grows withdrawn.redeemManager := by
      rw [reported]
      refine .of_kept rfl ?_
      rw [List.length_append]
      exact Nat.le_add_right _ _
    exact grows

theorem Step.grows (step : Step deployment system after) :
    system.redeemManager.Grows after.redeemManager := by
  cases step with
  | operation operation => exact operation.grows
  | report returned => exact report_grows returned

section Loop

variable {call : RedeemManager.ClaimCall} {sender allowlist : Address}
  {redeemRequestId withdrawalEventId : Nat}
  {params : RedeemManager.ClaimParameters}

theorem beginClaim_skipped
    (returned : system.beginClaim call allowlist redeemRequestId
      withdrawalEventId = .ok (next, none)) : next = system := by
  simp only [beginClaim, bind_eq_ok, require_eq_ok, fetch_eq_ok] at returned
  obtain ⟨-, -, -, -, request, -, -, -, -, -, returned⟩ := returned
  split at returned
  · simp only [bind_eq_ok, require_eq_ok, pure_eq_ok, Prod.mk.injEq]
      at returned
    obtain ⟨-, -, rfl, -⟩ := returned
    rfl
  · simp only [bind_eq_ok, require_eq_ok, pure_eq_ok, Prod.mk.injEq,
      Prod.exists] at returned
    obtain ⟨_, -, _, -, -, -, _, _, -, -, -, -, impossible⟩ := returned
    cases impossible

/-- What a claim has done when it reaches its payment. -/
structure BegunClaim (system : System) (call : RedeemManager.ClaimCall)
    (allowlist : Address) (redeemRequestId withdrawalEventId : Nat)
    (paid : System) (params : RedeemManager.ClaimParameters) where
  request : RedeemRequest
  event : WithdrawalEvent
  saved : RedeemManager
  requestCounted : redeemRequestId < call.redeemRequestCount
  eventCounted : withdrawalEventId < call.withdrawalEventCount
  requestFound :
    system.redeemManager.redeemQueue[redeemRequestId]? = some request
  eventFound :
    system.redeemManager.withdrawalStack[withdrawalEventId]? = some event
  recipientAllowed :
    (system.allowlists allowlist).isDenied request.recipient = false
  initiatorAllowed :
    (system.allowlists allowlist).isDenied request.initiator = false
  nonzero : request.amount ≠ 0
  matching : RedeemManager.isMatch request event = .ok true
  claimed : RedeemManager.claimRedeemRequest call.depth system.redeemManager
    (RedeemManager.initialParameters call request event redeemRequestId
      withdrawalEventId) = .ok (saved, params)
  enough : params.ethAmount ≤ saved.balance
  paid_eq : paid = { system with
    redeemManager := { saved with
      balance := saved.balance - params.ethAmount
      transfers := saved.transfers ++
        [.claimPayment params.redeemRequest.recipient params.ethAmount] } }

theorem beginClaim_begun {paid : System}
    (returned : system.beginClaim call allowlist redeemRequestId
      withdrawalEventId = .ok (paid, some params)) :
    Nonempty (BegunClaim system call allowlist redeemRequestId
      withdrawalEventId paid params) := by
  simp only [beginClaim, bind_eq_ok, require_eq_ok, fetch_eq_ok] at returned
  obtain ⟨-, requestCounted, -, eventCounted, request, requestFound, -,
    recipientAllowed, -, initiatorAllowed, returned⟩ := returned
  split at returned
  · simp only [bind_eq_ok, require_eq_ok, pure_eq_ok, Prod.mk.injEq,
      reduceCtorEq, and_false, exists_false] at returned
  · rename_i nonzero
    simp only [bind_eq_ok, require_eq_ok, fetch_eq_ok, pure_eq_ok,
      Prod.mk.injEq, Prod.exists] at returned
    obtain ⟨event, eventFound, matching, matched, -, rfl, saved, last,
      claimed, -, enough, paid_eq, same⟩ := returned
    obtain rfl := Option.some.inj same
    exact ⟨request, event, saved, requestCounted, eventCounted, requestFound,
      eventFound, recipientAllowed, initiatorAllowed, nonzero, matched,
      claimed, enough, paid_eq.symm⟩

theorem BegunClaim.grows {paid : System}
    (begun : BegunClaim system call allowlist redeemRequestId
      withdrawalEventId paid params) :
    system.redeemManager.Grows paid.redeemManager := by
  obtain ⟨stored, found, -, -, queue, stack, -⟩ :=
    RedeemManager.claimRedeemRequest_frame begun.claimed
  rw [begun.paid_eq]
  exact .of_saved found queue stack

theorem BegunClaim.length {paid : System}
    (begun : BegunClaim system call allowlist redeemRequestId
      withdrawalEventId paid params) :
    paid.redeemManager.redeemQueue.length =
      system.redeemManager.redeemQueue.length := by
  obtain ⟨stored, -, -, -, queue, -⟩ :=
    RedeemManager.claimRedeemRequest_frame begun.claimed
  rw [begun.paid_eq]
  exact (congrArg List.length queue).trans (List.length_set ..)

theorem beginClaim_grows {paid : System}
    (returned : system.beginClaim call allowlist redeemRequestId
      withdrawalEventId = .ok (paid, some params)) :
    system.redeemManager.Grows paid.redeemManager := by
  obtain ⟨begun⟩ := beginClaim_begun returned
  exact begun.grows

end Loop

theorem endClaim_grows (params : RedeemManager.ClaimParameters) :
    system.redeemManager.Grows (system.endClaim params).redeemManager :=
  .of_kept rfl le_rfl

end System

end RiverProtocol
