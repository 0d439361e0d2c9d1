import RiverProtocol.System.Calls

/-!
# The logs of the redeem manager are only written

No contract reads the logs.  A system that emitted more before does the same,
so a step is a step whatever was logged earlier.
-/

namespace RiverProtocol

open Checked Outcome

theorem map_ite_except {ε α β : Type} {condition : Prop} [Decidable condition]
    {transform : α → β} {left right : Except ε α} :
    (if condition then left else right).map transform =
      if condition then left.map transform else right.map transform := by
  split <;> rfl

theorem bind_map_except {ε α β γ : Type} {transform : α → β}
    {action : Except ε α} {next : β → Except ε γ} :
    (action.map transform >>= next) =
      action >>= fun value => next (transform value) := by
  cases action <;> rfl

theorem map_eq_ok {ε α β : Type} {transform : α → β} {action : Except ε α}
    {result : β} : action.map transform = .ok result ↔
      ∃ value, action = .ok value ∧ transform value = result := by
  cases action <;> simp [Except.map]

namespace RedeemManager

/-- The manager with logs in front of its own. -/
def told (earlier : List RedeemLog) (manager : RedeemManager) :
    RedeemManager :=
  { manager with logs := earlier ++ manager.logs }

variable (earlier : List RedeemLog) (manager : RedeemManager)

theorem emit_told (log : RedeemLog) :
    (manager.told earlier).emit log = (manager.emit log).told earlier := by
  simp only [emit, told, List.append_assoc]

theorem requestRedeem_told {E : Type} (river : RiverCalls E) (world : E)
    (lsETHAmount : Nat) (recipient initiator : Address) :
    requestRedeem river world (manager.told earlier) lsETHAmount recipient
        initiator =
      (requestRedeem river world manager lsETHAmount recipient initiator).map
        fun result =>
          (result.1.told earlier, result.2) := by
  simp only [requestRedeem, Outcome.map_bind, setRedeemDemand, emit, told,
    List.append_assoc]
  rfl

theorem reportWithdraw_told (lsETHWithdrawable msgValue : Nat) :
    (manager.told earlier).reportWithdraw lsETHWithdrawable msgValue =
      (manager.reportWithdraw lsETHWithdrawable msgValue).map
        (told earlier) := by
  simp only [reportWithdraw, Outcome.map_bind, setRedeemDemand, emit, told,
    List.append_assoc]
  rfl

theorem pullExceedingEth_told (max : Nat) :
    (manager.told earlier).pullExceedingEth max =
      (manager.pullExceedingEth max).map
        fun result =>
          (result.1.told earlier, result.2) := by
  simp only [pullExceedingEth, map_ite_except, Outcome.map_bind]
  rfl

theorem matchWithdrawalEvent_told (params : ClaimParameters) :
    matchWithdrawalEvent (manager.told earlier) params =
      (matchWithdrawalEvent manager params).map
        fun result =>
          (result.1.told earlier, result.2) := by
  simp only [matchWithdrawalEvent, Outcome.map_bind, emit, told,
    List.append_assoc]
  rfl

theorem saveRedeemRequest_told (params : ClaimParameters) :
    saveRedeemRequest (manager.told earlier) params =
      (saveRedeemRequest manager params).map (told earlier) := by
  simp only [saveRedeemRequest, Outcome.map_bind]
  rfl

theorem claimRedeemRequest_told (depth : Nat) (params : ClaimParameters) :
    claimRedeemRequest depth (manager.told earlier) params =
      (claimRedeemRequest depth manager params).map
        fun result =>
          (result.1.told earlier, result.2) := by
  induction depth generalizing manager params with
  | zero =>
      simp only [claimRedeemRequest, matchWithdrawalEvent_told, Outcome.map_bind,
        bind_map_except, saveRedeemRequest_told]
      rfl
  | succ depth ih =>
      simp only [claimRedeemRequest, matchWithdrawalEvent_told, Outcome.map_bind,
        bind_map_except, map_ite_except, saveRedeemRequest_told, ih]
      rfl

theorem payRecipient_told {E : Type} (river : RiverCalls E) (world : E)
    (recipient : Address) (ethAmount : Nat) :
    payRecipient river world (manager.told earlier) recipient ethAmount =
      (payRecipient river world manager recipient ethAmount).map
        fun result =>
          (result.1.told earlier, result.2) := by
  simp only [payRecipient, Outcome.map_bind]
  cases river.call world recipient ethAmount <;> rfl

theorem claimOne_told {E : Type} (river : RiverCalls E) (call : ClaimCall)
    (world : E) (redeemRequestId withdrawalEventId : Nat) :
    claimOne river call world (manager.told earlier) redeemRequestId
        withdrawalEventId =
      (claimOne river call world manager redeemRequestId
        withdrawalEventId).map
        fun result =>
          (result.1.told earlier, result.2) := by
  simp only [claimOne, claimLoadedRequest, Outcome.map_bind, map_ite_except,
    claimRedeemRequest_told, bind_map_except, payRecipient_told, emit_told]
  rfl

theorem claimAll_told {E : Type} (river : RiverCalls E) (call : ClaimCall)
    (pairs : List (Nat × Nat)) (world : E) :
    claimAll river call pairs world (manager.told earlier) =
      (claimAll river call pairs world manager).map
        fun result =>
          (result.1.told earlier, result.2) := by
  induction pairs generalizing world manager with
  | nil => rfl
  | cons pair rest ih =>
      simp only [claimAll, claimOne_told, Outcome.map_bind, bind_map_except, ih]
      rfl

theorem claimRedeemRequests_told {E : Type} (river : RiverCalls E) (world : E)
    (redeemRequestIds withdrawalEventIds : List Nat)
    (skipAlreadyClaimed : Bool) (depth : Nat) :
    claimRedeemRequests river world (manager.told earlier) redeemRequestIds
        withdrawalEventIds skipAlreadyClaimed depth =
      (claimRedeemRequests river world manager redeemRequestIds
        withdrawalEventIds skipAlreadyClaimed depth).map
        fun result =>
          (result.1.told earlier, result.2) := by
  simp only [claimRedeemRequests, claimAll_told, Outcome.map_bind]
  rfl

end RedeemManager

namespace System

/-- The system with logs in front of its own. -/
def told (earlier : List RedeemLog) (system : System) : System :=
  { system with redeemManager := system.redeemManager.told earlier }

variable (deployment : Deployment) (earlier : List RedeemLog)
  (system : System)

theorem told_river (river : River) :
    { system.told earlier with river := river } =
      told earlier { system with river := river } := rfl

theorem told_registry (registry : OperatorsRegistry) :
    { system.told earlier with registry := registry } =
      told earlier { system with registry := registry } := rfl

theorem ite_told {condition : Prop} [Decidable condition]
    {call : Except Error System} :
    (if condition then call.map (told earlier)
      else pure (system.told earlier)) =
      (if condition then call else pure system).map (told earlier) := by
  split <;> rfl

theorem ite_told_with {condition : Prop} [Decidable condition] {α : Type}
    {call : Except Error (System × α)} {value : α} :
    (if condition then call.map fun result =>
          (result.1.told earlier, result.2)
      else pure (system.told earlier, value)) =
      (if condition then call else pure (system, value)).map fun result =>
          (result.1.told earlier, result.2) := by
  split <;> rfl

theorem requestRedeemBy_told (sender : Address) (lsETHAmount : Nat)
    (recipient initiator : Address) :
    (system.told earlier).requestRedeemBy deployment sender lsETHAmount
        recipient initiator =
      (system.requestRedeemBy deployment sender lsETHAmount recipient
        initiator).map fun result =>
          (result.1.told earlier, result.2) := by
  simp only [requestRedeemBy, told, RedeemManager.requestRedeem_told,
    Outcome.map_bind, bind_map_except]
  rfl

theorem requestRedeemFor_told (sender : Address) (lsETHAmount : Nat)
    (recipient : Address) :
    (system.told earlier).requestRedeemFor deployment sender lsETHAmount
        recipient =
      (system.requestRedeemFor deployment sender lsETHAmount recipient).map
        fun result =>
          (result.1.told earlier, result.2) := by
  simp only [requestRedeemFor, requestRedeemBy_told, Outcome.map_bind]
  rfl

theorem requestRedeemSelf_told (sender : Address) (lsETHAmount : Nat) :
    (system.told earlier).requestRedeemSelf deployment sender lsETHAmount =
      (system.requestRedeemSelf deployment sender lsETHAmount).map
        fun result =>
          (result.1.told earlier, result.2) := by
  simp only [requestRedeemSelf, requestRedeemBy_told, Outcome.map_bind]
  rfl

theorem requestRedeem_told (sender : Address) (lsETHAmount : Nat)
    (recipient : Address) :
    (system.told earlier).requestRedeem deployment sender lsETHAmount
        recipient =
      (system.requestRedeem deployment sender lsETHAmount recipient).map
        fun result =>
          (result.1.told earlier, result.2) := by
  simp only [requestRedeem, told_river, requestRedeemBy_told,
    Outcome.map_bind]
  rfl

theorem claimRedeemRequests_told (sender : Address)
    (accepts : Address → Bool) (redeemRequestIds withdrawalEventIds : List Nat)
    (skipAlreadyClaimed : Bool) (depth : Nat) :
    (system.told earlier).claimRedeemRequests deployment sender accepts
        redeemRequestIds withdrawalEventIds skipAlreadyClaimed depth =
      (system.claimRedeemRequests deployment sender accepts redeemRequestIds
        withdrawalEventIds skipAlreadyClaimed depth).map
        fun result =>
          (result.1.told earlier, result.2) := by
  simp only [claimRedeemRequests, told, RedeemManager.claimRedeemRequests_told,
    Outcome.map_bind, bind_map_except]
  rfl

theorem depositToConsensusLayer_told (contract : DepositContract)
    (sender : Address) (allocations : List OperatorAllocation)
    (depositRoot : Nat) :
    (system.told earlier).depositToConsensusLayer deployment contract sender
        allocations depositRoot =
      (system.depositToConsensusLayer deployment contract sender allocations
        depositRoot).map (told earlier) := by
  simp only [depositToConsensusLayer, Outcome.map_bind]
  rfl

theorem pullCLFunds_told (skimmedEthAmount exitedEthAmount : Nat) :
    (system.told earlier).pullCLFunds skimmedEthAmount exitedEthAmount =
      (system.pullCLFunds skimmedEthAmount exitedEthAmount).map
        (told earlier) := by
  simp only [pullCLFunds, Outcome.map_bind]
  rfl

theorem applyReport_told (increase : River.ReportIncrease)
    (report : ConsensusLayerReport) :
    (system.told earlier).applyReport increase report =
      (system.applyReport increase report).map (told earlier) := by
  simp only [applyReport, pullCLFunds_told, ite_told, Outcome.map_bind,
    bind_map_except]
  rfl

theorem pullELFees_told (funds : ExternalFunds) (max : Nat) :
    (system.told earlier).pullELFees funds max =
      (system.pullELFees funds max).map fun result =>
          (result.1.told earlier, result.2) := by
  simp only [pullELFees, Outcome.map_bind]
  rfl

theorem pullCoverageFunds_told (funds : ExternalFunds) (max : Nat) :
    (system.told earlier).pullCoverageFunds funds max =
      (system.pullCoverageFunds funds max).map
        fun result =>
          (result.1.told earlier, result.2) := by
  simp only [pullCoverageFunds, Outcome.map_bind, map_ite_except]
  rfl

theorem pullRedeemManagerExceedingEth_told (max : Nat) :
    (system.told earlier).pullRedeemManagerExceedingEth max =
      (system.pullRedeemManagerExceedingEth max).map
        fun result =>
          (result.1.told earlier, result.2) := by
  simp only [pullRedeemManagerExceedingEth, told,
    RedeemManager.pullExceedingEth_told, Outcome.map_bind, bind_map_except]
  rfl

theorem pullWithin_told (funds : ExternalFunds) (rewards available : Nat) :
    (system.told earlier).pullWithin funds rewards available =
      (system.pullWithin funds rewards available).map
        fun result =>
          (result.1.told earlier, result.2) := by
  simp only [pullWithin, pullELFees_told, pullRedeemManagerExceedingEth_told,
    pullCoverageFunds_told, ite_told_with, bind_map_except, Outcome.map_bind]
  rfl

theorem requestExits_told (exitingBalance : Nat)
    (depositToRedeemRebalancingAllowed : Bool) :
    (system.told earlier).requestExits exitingBalance
        depositToRedeemRebalancingAllowed =
      (system.requestExits exitingBalance
        depositToRedeemRebalancingAllowed).map (told earlier) := by
  simp only [requestExits, Outcome.map_bind, map_ite_except]
  rfl

theorem requestExitsBasedOnRedeemDemandAfterRebalancings_told
    (exitingBalance : Nat) (stoppedValidatorCounts : List Nat)
    (depositToRedeemRebalancingAllowed slashingContainmentModeEnabled :
      Bool) :
    (system.told earlier).requestExitsBasedOnRedeemDemandAfterRebalancings
        exitingBalance stoppedValidatorCounts
        depositToRedeemRebalancingAllowed slashingContainmentModeEnabled =
      (system.requestExitsBasedOnRedeemDemandAfterRebalancings exitingBalance
        stoppedValidatorCounts depositToRedeemRebalancingAllowed
        slashingContainmentModeEnabled).map (told earlier) := by
  simp only [requestExitsBasedOnRedeemDemandAfterRebalancings, told_registry,
    requestExits_told, Outcome.map_bind, map_ite_except]
  rfl

theorem prepareReport_told (funds : ExternalFunds) (timestamp : Nat)
    (sender : Address) (report : ConsensusLayerReport) :
    (system.told earlier).prepareReport funds timestamp sender report =
      (system.prepareReport funds timestamp sender report).map fun result =>
          (result.1.told earlier, result.2) := by
  simp only [prepareReport, applyReport_told, pullWithin_told,
    requestExitsBasedOnRedeemDemandAfterRebalancings_told, told_river,
    Outcome.map_bind, bind_map_except]
  rfl

theorem reportWithdrawToRedeemManager_told :
    (system.told earlier).reportWithdrawToRedeemManager deployment =
      (system.reportWithdrawToRedeemManager deployment).map
        (told earlier) := by
  simp only [reportWithdrawToRedeemManager, suppliedDemand, told,
    RedeemManager.reportWithdraw_told, Outcome.map_bind, map_ite_except,
    bind_map_except]
  rfl

theorem finishReport_told (timeElapsed : Nat)
    (slashingContainmentMode : Bool) :
    (system.told earlier).finishReport deployment timeElapsed
        slashingContainmentMode =
      (system.finishReport deployment timeElapsed
        slashingContainmentMode).map (told earlier) := by
  simp only [finishReport, reportWithdrawToRedeemManager_told,
    Outcome.map_bind, bind_map_except]
  rfl

theorem setConsensusLayerData_told (funds : ExternalFunds) (timestamp : Nat)
    (sender : Address) (report : ConsensusLayerReport) :
    (system.told earlier).setConsensusLayerData deployment funds timestamp
        sender report =
      (system.setConsensusLayerData deployment funds timestamp sender
        report).map fun result =>
          (result.1.told earlier, result.2) := by
  simp only [setConsensusLayerData, prepareReport_told, finishReport_told,
    Outcome.map_bind, bind_map_except]
  rfl

theorem Call.apply_told (call : Call) (sender : Address) :
    call.apply deployment (system.told earlier) sender =
      (call.apply deployment system sender).map (System.told earlier) := by
  cases call with
  | river call =>
      simp only [Call.apply, Outcome.map_bind]
      rfl
  | requestRedeem lsETHAmount recipient =>
      simp only [Call.apply, requestRedeem_told, Outcome.map_bind,
        bind_map_except]
      rfl
  | requestRedeemFor lsETHAmount recipient =>
      simp only [Call.apply, requestRedeemFor_told, Outcome.map_bind,
        bind_map_except]
      rfl
  | requestRedeemSelf lsETHAmount =>
      simp only [Call.apply, requestRedeemSelf_told, Outcome.map_bind,
        bind_map_except]
      rfl
  | claimRedeemRequests accepts redeemRequestIds withdrawalEventIds
      skipAlreadyClaimed depth =>
      simp only [Call.apply, claimRedeemRequests_told, Outcome.map_bind,
        bind_map_except]
      rfl
  | wrap recipient shares =>
      simp only [Call.apply, System.wrap, Outcome.map_bind]
      rfl
  | unwrap recipient shares =>
      simp only [Call.apply, System.unwrap, Outcome.map_bind]
      rfl
  | wrapper call =>
      simp only [Call.apply, Outcome.map_bind]
      rfl
  | depositToConsensusLayer contract allocations depositRoot =>
      exact depositToConsensusLayer_told ..
  | requestValidatorExits allocations =>
      simp only [Call.apply, Outcome.map_bind]
      rfl
  | registry blockNumber call =>
      simp only [Call.apply, Outcome.map_bind]
      rfl
  | allowlist account call =>
      simp only [Call.apply, Outcome.map_bind]
      rfl

variable {deployment earlier system} {after : System}

/-- A step is a step whatever was logged before. -/
theorem Step.told_iff :
    Step deployment (system.told earlier) after ↔
      ∃ next, Step deployment system next ∧ next.told earlier = after := by
  constructor
  · intro step
    cases step with
    | operation operation =>
        obtain ⟨sender, call, external, returned⟩ | ⟨amount, rfl⟩ :=
          operation.sent
        · rw [Call.apply_told] at returned
          obtain ⟨next, answered, rfl⟩ := map_eq_ok.mp returned
          exact ⟨next, .operation (Call.operation external answered), rfl⟩
        · exact ⟨_, .operation (.consensusLayerWithdrawal amount), rfl⟩
    | report returned =>
        rw [setConsensusLayerData_told] at returned
        obtain ⟨⟨next, trace⟩, answered, same⟩ := map_eq_ok.mp returned
        exact ⟨next, .report answered, congrArg Prod.fst same⟩
  · rintro ⟨next, step, rfl⟩
    cases step with
    | operation operation =>
        obtain ⟨sender, call, external, returned⟩ | ⟨amount, rfl⟩ :=
          operation.sent
        · have answered : call.apply deployment (system.told earlier) sender =
              .ok (next.told earlier) := by
            rw [Call.apply_told, returned]
            rfl
          exact .operation (Call.operation external answered)
        · exact .operation (.consensusLayerWithdrawal amount)
    | @report funds timestamp sender report trace returned =>
        have answered : (system.told earlier).setConsensusLayerData deployment
            funds timestamp sender report =
            .ok (next.told earlier, trace) := by
          rw [setConsensusLayerData_told, returned]
          rfl
        exact .report answered

/-- The system with other logs. -/
def relog (logs : List RedeemLog) (system : System) : System :=
  { system with redeemManager := { system.redeemManager with logs } }

theorem told_relog_nil (logs : List RedeemLog) (system : System) :
    (system.relog []).told logs = system.relog logs := by
  simp only [relog, told, RedeemManager.told, List.append_nil]

theorem Step.relog (step : Step deployment system after) :
    ∃ new, after.redeemManager.logs = system.redeemManager.logs ++ new ∧
      ∀ logs, Step deployment (system.relog logs)
        (after.relog (logs ++ new)) := by
  have silent : (system.relog []).told system.redeemManager.logs = system :=
    told_relog_nil _ _
  rw [← silent] at step
  obtain ⟨next, quiet, rfl⟩ := Step.told_iff.mp step
  refine ⟨next.redeemManager.logs, rfl, fun logs => ?_⟩
  rw [← told_relog_nil]
  exact Step.told_iff.mpr ⟨next, quiet, rfl⟩

/-- So does a run. -/
theorem relog_run
    (run : Relation.ReflTransGen (Step deployment) system after) :
    ∃ new, after.redeemManager.logs = system.redeemManager.logs ++ new ∧
      ∀ logs, Relation.ReflTransGen (Step deployment) (system.relog logs)
        (after.relog (logs ++ new)) := by
  induction run with
  | refl =>
      refine ⟨[], (List.append_nil _).symm, fun logs => ?_⟩
      rw [List.append_nil]
  | tail _ step ih =>
      obtain ⟨new, logged, ran⟩ := ih
      obtain ⟨more, appended, steps⟩ := step.relog
      refine ⟨new ++ more, ?_, fun logs => ?_⟩
      · rw [appended, logged, List.append_assoc]
      · rw [← List.append_assoc]
        exact (ran logs).tail (steps (logs ++ new))

end System

end RiverProtocol
