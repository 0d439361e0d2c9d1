import RiverProtocol.System.Reentrancy
import RiverProtocol.System.Containment

/-!
# Claims with callbacks are calls one after another

A pair of a claim, alone, is a call: what it read before the loop only bounds
its depth.  What a callback does comes after the pair it interrupts and before
the next one.  Only the log of the pair moves, to before the callback.
-/

namespace RiverProtocol

open Checked Outcome

namespace System

variable {deployment : Deployment} {system next after : System}

section Loop

variable {call : RedeemManager.ClaimCall} {sender allowlist : Address}
  {redeemRequestId withdrawalEventId : Nat}
  {params : RedeemManager.ClaimParameters}

/-- One pair of a claim whose payment goes through without a callback is a
call of its own. -/
theorem BegunClaim.serial_step {paid : System} {world : World}
    (begun : BegunClaim system call allowlist redeemRequestId
      withdrawalEventId paid params)
    (pointer : system.river.config.allowlist = allowlist)
    (external : deployment.External sender)
    (counted : call.withdrawalEventCount ≤
      system.redeemManager.withdrawalStack.length)
    (fewRequests : system.redeemManager.redeemQueue.length < uint32Limit)
    (fewEvents : system.redeemManager.withdrawalStack.length < uint32Limit)
    (answered : (riverCalls deployment sender fun _ => true).call
      system.toWorld params.redeemRequest.recipient params.ethAmount =
        some world) :
    Step deployment system
      (endClaim { world with redeemManager := paid.redeemManager } params) := by
  obtain ⟨request, event, saved, requestCounted, eventCounted, requestFound,
    eventFound, recipientAllowed, initiatorAllowed, nonzero, matching, claimed,
    enough, rfl⟩ := begun
  obtain ⟨-, -, idEq, -⟩ := RedeemManager.claimRedeemRequest_frame claimed
  have requestInside : redeemRequestId <
      system.redeemManager.redeemQueue.length :=
    (List.getElem?_eq_some_iff.mp requestFound).1
  have eventInside : withdrawalEventId <
      system.redeemManager.withdrawalStack.length :=
    (List.getElem?_eq_some_iff.mp eventFound).1
  have alone : RedeemManager.claimRedeemRequest
      (min call.depth (call.withdrawalEventCount - 1 - withdrawalEventId))
      system.redeemManager
      { redeemRequest := request
        withdrawalEvent := event
        redeemRequestId := redeemRequestId
        withdrawalEventId := withdrawalEventId
        withdrawalEventCount := system.redeemManager.withdrawalStack.length
        lsETHAmount := 0
        ethAmount := 0 } =
      .ok (saved, params.counting
        system.redeemManager.withdrawalStack.length) :=
    RedeemManager.claimRedeemRequest_counting claimed eventCounted counted
  subst pointer
  have recipientAllowed' : (riverCalls deployment sender
      fun _ => true).isDenied system.toWorld request.recipient = false :=
    recipientAllowed
  have initiatorAllowed' : (riverCalls deployment sender
      fun _ => true).isDenied system.toWorld request.initiator = false :=
    initiatorAllowed
  have enough' : (params.counting
      system.redeemManager.withdrawalStack.length).ethAmount ≤ saved.balance :=
    enough
  have answered' : (riverCalls deployment sender fun _ => true).call
      system.toWorld (params.counting
        system.redeemManager.withdrawalStack.length).redeemRequest.recipient
      (params.counting
        system.redeemManager.withdrawalStack.length).ethAmount = some world :=
    answered
  have returned : ∃ statuses, system.claimRedeemRequests deployment sender
      (fun _ => true) [redeemRequestId] [withdrawalEventId] false
      (min call.depth (call.withdrawalEventCount - 1 - withdrawalEventId)) =
      .ok (endClaim { world with
        redeemManager := { saved with
          balance := saved.balance - params.ethAmount
          transfers := saved.transfers ++ [.claimPayment
            params.redeemRequest.recipient params.ethAmount] } } params,
        statuses) := by
    simp only [System.claimRedeemRequests, RedeemManager.claimRedeemRequests,
      List.length_singleton, require_of trivial, toUint32_of_lt fewRequests,
      toUint32_of_lt fewEvents, ok_bind, RedeemManager.claimAll,
      List.zip_cons_cons, List.zip_nil_right, RedeemManager.claimOne,
      require_of requestInside, require_of eventInside, fetch, requestFound,
      require_of recipientAllowed', require_of initiatorAllowed',
      if_neg nonzero, RedeemManager.claimLoadedRequest, eventFound, matching,
      alone, RedeemManager.payRecipient, require_of enough', answered']
    refine ⟨[if params.redeemRequest.amount = 0 then .fullyClaimed
      else .partiallyClaimed], ?_⟩
    rw [endClaim, idEq]
    rfl
  obtain ⟨statuses, returned⟩ := returned
  exact .operation (.claimRedeemRequests external returned)

end Loop

theorem Runs.grows {activity : Activity}
    (run : Runs deployment activity system after) :
    system.redeemManager.Grows after.redeemManager := by
  induction run with
  | done => exact .refl
  | step step _ _ ih => exact step.grows.trans ih
  | claim _ _ _ first second => exact first.trans second
  | nil => exact .refl
  | skipped begins _ ih =>
      obtain rfl := beginClaim_skipped begins
      exact ih
  | paid begins _ _ _ callback rest =>
      exact (beginClaim_grows begins).trans
        (callback.trans ((endClaim_grows _).trans rest))
  | deposited begins _ _ _ ih =>
      exact (beginClaim_grows begins).trans ((endClaim_grows _).trans ih)

/-- The same system, which logged the same in another order. -/
def SameButLogs (serial system : System) : Prop :=
  serial.redeemManager.logs.Perm system.redeemManager.logs ∧
    serial = system.relog serial.redeemManager.logs

theorem SameButLogs.refl : SameButLogs system system := ⟨.refl _, rfl⟩

theorem SameButLogs.trans (first : SameButLogs system next)
    (second : SameButLogs next after) : SameButLogs system after := by
  obtain ⟨shuffled, same⟩ := first
  obtain ⟨reshuffled, eq⟩ := second
  refine ⟨shuffled.trans reshuffled, ?_⟩
  rw [eq] at same
  exact same

/-- What runs from a system runs from one with the same logs in another
order. -/
theorem SameButLogs.run {serial : System} (same : SameButLogs serial system)
    (run : Relation.ReflTransGen (Step deployment) system after) :
    ∃ serialAfter,
      Relation.ReflTransGen (Step deployment) serial serialAfter ∧
        SameButLogs serialAfter after := by
  obtain ⟨new, logged, ran⟩ := relog_run run
  have ran := ran serial.redeemManager.logs
  rw [← same.2] at ran
  refine ⟨_, ran, ?_, rfl⟩
  rw [logged]
  exact same.1.append_right new

/-- The log of a claim may as well come before the callback of its
payment. -/
theorem SameButLogs.endClaim {serial returned : System}
    {params : RedeemManager.ClaimParameters}
    (callback : Relation.ReflTransGen (Step deployment) system serial)
    (same : SameButLogs serial returned) :
    ∃ serialAfter,
      Relation.ReflTransGen (Step deployment) (system.endClaim params)
        serialAfter ∧
        SameButLogs serialAfter (returned.endClaim params) := by
  obtain ⟨new, logged, ran⟩ := relog_run callback
  obtain ⟨shuffled, eq⟩ := same
  refine ⟨_, ran (system.endClaim params).redeemManager.logs, ?_, ?_⟩
  · rw [logged] at shuffled
    have late (log : RedeemLog) :
        (system.redeemManager.logs ++ [log] ++ new).Perm
          (returned.redeemManager.logs ++ [log]) := by
      rw [List.append_assoc]
      refine (List.perm_append_comm.append_left _).trans ?_
      rw [← List.append_assoc]
      exact shuffled.append_right _
    exact late _
  · rw [eq]
    rfl

/-- A claim under way: its counts are not ahead of the stack, and River still
points to its allowlist. -/
def Activity.Fits (deployment : Deployment) (system : System) :
    Activity → Prop
  | .callback => True
  | .claims sender call allowlist _ =>
      deployment.External sender ∧
        call.withdrawalEventCount ≤
          system.redeemManager.withdrawalStack.length ∧
        system.river.config.allowlist = allowlist

/-- A run is that of steps one after another. -/
theorem Runs.serial {activity : Activity}
    (run : Runs deployment activity system after)
    (fits : activity.Fits deployment system)
    (fewRequests : after.redeemManager.redeemQueue.length < uint32Limit)
    (fewEvents : after.redeemManager.withdrawalStack.length < uint32Limit) :
    after.river.config.allowlist = system.river.config.allowlist ∧
      ∃ serial, Relation.ReflTransGen (Step deployment) system serial ∧
        SameButLogs serial after := by
  induction run with
  | done => exact ⟨rfl, _, .refl, .refl⟩
  | step step pointer _ ih =>
      obtain ⟨kept, serial, steps, same⟩ := ih trivial fewRequests fewEvents
      exact ⟨kept.trans pointer, serial, steps.head step, same⟩
  | @claim system next after sender _ _ _ external claim callback first
      second =>
      have grows := callback.grows
      obtain ⟨pointer, begun, steps, same⟩ := first
        ⟨external, toUint32_le _, rfl⟩ (grows.queue.trans_lt fewRequests)
        (grows.stack.trans_lt fewEvents)
      obtain ⟨kept, rest, more, sameRest⟩ :=
        second trivial fewRequests fewEvents
      obtain ⟨serial, ran, sameSerial⟩ := same.run more
      exact ⟨kept.trans pointer, serial, steps.trans ran,
        sameSerial.trans sameRest⟩
  | nil => exact ⟨rfl, _, .refl, .refl⟩
  | skipped begins _ ih =>
      obtain rfl := beginClaim_skipped begins
      exact ih fits fewRequests fewEvents
  | @paid system paid returned after sender allowlist call id eventId params
      pairs begins accepts callback claim first second =>
      obtain ⟨external, counted, pointer⟩ := fits
      obtain ⟨begun⟩ := beginClaim_begun begins
      have started := begun.grows
      have called := callback.grows
      have rest := (endClaim_grows params).trans claim.grows
      have later := called.trans rest
      have answered : (riverCalls deployment sender fun _ => true).call
          system.toWorld params.redeemRequest.recipient params.ethAmount =
            some system.toWorld := by
        have notRiver : params.redeemRequest.recipient ≠ deployment.river := by
          rintro same
          exact accepts (same ▸ List.mem_cons_self ..)
        simp only [riverCalls, if_neg notRiver]
        rw [if_neg accepts]
        rfl
      have paying := begun.serial_step pointer external counted
        ((started.queue.trans later.queue).trans_lt fewRequests)
        ((started.stack.trans later.stack).trans_lt fewEvents) answered
      have paidWorld : system.toWorld = paid.toWorld := by
        rw [begun.paid_eq]
      rw [paidWorld] at paying
      obtain ⟨back, serial, steps, same⟩ := first trivial
        (rest.queue.trans_lt fewRequests) (rest.stack.trans_lt fewEvents)
      have atCallback : paid.river.config.allowlist = allowlist := by
        rw [← paidWorld]
        exact pointer
      obtain ⟨kept, restSerial, more, sameRest⟩ := second
        ⟨external, counted.trans (started.trans called).stack,
          back.trans atCallback⟩ fewRequests fewEvents
      obtain ⟨ended, endedSteps, sameEnded⟩ : ∃ ended,
          Relation.ReflTransGen (Step deployment) (paid.endClaim params)
            ended ∧ SameButLogs ended (returned.endClaim params) :=
        SameButLogs.endClaim steps same
      obtain ⟨last, lastSteps, sameLast⟩ := sameEnded.run more
      refine ⟨kept.trans (back.trans (atCallback.trans pointer.symm)), last,
        .head paying (endedSteps.trans lastSteps), sameLast.trans sameRest⟩
  | @deposited system paid after river sender allowlist call id eventId params
      pairs begins toRiver depositing claim ih =>
      obtain ⟨external, counted, pointer⟩ := fits
      obtain ⟨begun⟩ := beginClaim_begun begins
      have started := begun.grows
      have rest := (endClaim_grows params).trans claim.grows
      have paidWorld : paid.toWorld = system.toWorld := by
        rw [begun.paid_eq]
      have answered : (riverCalls deployment sender fun _ => true).call
          system.toWorld params.redeemRequest.recipient params.ethAmount =
            some { system.toWorld with river := river } := by
        have depositing : system.river.deposit system.allowlist
            deployment.redeemManager params.ethAmount = .ok river := by
          rw [← paidWorld]
          exact depositing
        simp only [riverCalls, if_pos toRiver, depositing]
      have paying := begun.serial_step pointer external counted
        ((started.queue.trans rest.queue).trans_lt fewRequests)
        ((started.stack.trans rest.stack).trans_lt fewEvents) answered
      have kept : river.config = paid.river.config := by
        obtain ⟨-, -, rfl⟩ := River.depositFor_ok depositing
        rfl
      have keptPointer : river.config.allowlist = allowlist := by
        rw [kept, paidWorld]
        exact pointer
      obtain ⟨after, serial, steps, same⟩ := ih
        ⟨external, counted.trans started.stack, keptPointer⟩ fewRequests
        fewEvents
      have paying' : Step deployment system
          ({ paid with river := river }.endClaim params) := by
        rw [paidWorld]
        exact paying
      exact ⟨after.trans (keptPointer.trans pointer.symm), serial,
        steps.head paying', same⟩

/-- Transactions whose claims call back lead where steps one after another
do. -/
theorem callbacks_serialize
    (run : Relation.ReflTransGen (Transaction deployment) (fresh deployment)
      system)
    (fewRequests : system.redeemManager.redeemQueue.length < uint32Limit)
    (fewEvents : system.redeemManager.withdrawalStack.length < uint32Limit) :
    ∃ serial, Reachable deployment serial ∧ SameButLogs serial system := by
  induction run with
  | refl => exact ⟨_, .refl, .refl⟩
  | @tail before after _ transaction ih =>
      have grows : before.redeemManager.Grows after.redeemManager := by
        cases transaction with
        | step step => exact step.grows
        | claim _ _ claim => exact claim.grows
      obtain ⟨serial, reachable, same⟩ := ih
        (grows.queue.trans_lt fewRequests) (grows.stack.trans_lt fewEvents)
      obtain ⟨next, steps, sameNext⟩ : ∃ next,
          Relation.ReflTransGen (Step deployment) before next ∧
            SameButLogs next after := by
        cases transaction with
        | step step => exact ⟨after, .single step, .refl⟩
        | claim external _ claim =>
            exact (claim.serial ⟨external, toUint32_le _, rfl⟩ fewRequests
              fewEvents).2
      obtain ⟨last, ran, sameLast⟩ := same.run steps
      exact ⟨last, reachable.trans ran, sameLast.trans sameNext⟩

section Sample

open RedeemManager (alice)

/-- The recipient of a claim deposits again when it is paid. -/
theorem callbacks_serialize_sample : ∃ system paid params river serial,
    sampleServed alice = .ok system ∧
      system.beginClaim (system.claimCall true 1) system.river.config.allowlist
        0 0 = .ok (paid, some params) ∧
      (River.Call.deposit 5).apply paid.river paid.allowlist alice =
        .ok river ∧
      Reachable sample serial ∧
      SameButLogs serial ({ paid with river := river }.endClaim params) := by
  have checked : returns (sampleServed alice) (fun system =>
      returns (system.beginClaim (system.claimCall true 1)
        system.river.config.allowlist 0 0) fun begun =>
          begun.2.any fun params =>
            returns ((River.Call.deposit 5).apply begun.1.river
                begun.1.allowlist alice) (fun _ => true) &&
              decide (params.redeemRequest.recipient = alice ∧
                begun.1.redeemManager.redeemQueue.length < uint32Limit ∧
                begun.1.redeemManager.withdrawalStack.length <
                  uint32Limit)) = true := by
    decide +kernel
  obtain ⟨system, returned, facts⟩ := returns_iff.mp checked
  obtain ⟨⟨paid, answer⟩, begins, facts⟩ := returns_iff.mp facts
  obtain ⟨params, paying, facts⟩ := (Option.any_eq_true _ _).mp facts
  obtain ⟨depositing, facts⟩ := Bool.and_eq_true_iff.mp facts
  obtain ⟨river, deposited, -⟩ := returns_iff.mp depositing
  obtain ⟨recipient, fewRequests, fewEvents⟩ := of_decide_eq_true facts
  subst paying
  have external : sample.External alice := by decide
  have callback : Runs sample .callback paid { paid with river := river } :=
    .step (.operation (.river external deposited)) (by
      obtain ⟨-, -, rfl⟩ := River.depositFor_ok deposited
      rfl) .done
  have claim : Transaction sample system
      ({ paid with river := river }.endClaim params) :=
    @Transaction.claim _ _ _ alice true 1 [0] [0] external rfl
      (.paid begins (recipient ▸ external) callback .nil)
  have run := Relation.ReflTransGen.mono (fun _ _ => Transaction.step)
    _ _ (sampleServed_reachable returned)
  obtain ⟨serial, reachable, same⟩ := callbacks_serialize (run.tail claim)
    fewRequests fewEvents
  exact ⟨system, paid, params, river, serial, returned, begins, deposited,
    reachable, same⟩

end Sample

end System

end RiverProtocol
