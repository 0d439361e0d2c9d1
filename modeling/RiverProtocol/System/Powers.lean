import RiverProtocol.OperatorsRegistry.Authority
import RiverProtocol.System.Calls
import RiverProtocol.System.ContainedExits
import RiverProtocol.System.OracleReports

/-!
# Which roles move what

A run in which only some accounts send anything.  What such a run leaves alone
follows from the roles those accounts do not have: the administrators of River
and of the operators registry, the oracle, the keeper, and each operator.
-/

namespace RiverProtocol

open Checked Outcome Balances

variable {senders : Address → Prop}

namespace River

variable {river middle after : River} {allowlist : Allowlist}
  {sender owner recipient : Address} {value : Nat}

/-- The settings and the count of validators are kept. -/
structure SameSettings (river after : River) : Prop where
  config : after.config = river.config
  depositedValidatorCount :
    after.depositedValidatorCount = river.depositedValidatorCount

theorem depositFor_sameSettings
    (returned : river.depositFor allowlist sender recipient value =
      .ok after) : SameSettings river after := by
  obtain ⟨-, -, rfl⟩ := depositFor_ok returned
  exact ⟨rfl, rfl⟩

theorem transferFrom_sameSettings
    (returned : river.transferFrom allowlist sender owner recipient value =
      .ok after) : SameSettings river after := by
  obtain ⟨-, -, -, rfl | rfl⟩ := transferFrom_ok returned
  · exact ⟨rfl, rfl⟩
  · exact ⟨rfl, rfl⟩

theorem approveFor_config {spender : Address}
    (returned : river.approveFor owner spender value = .ok after) :
    after.config = river.config := by
  rw [approveFor_ok returned]
  rfl

theorem Call.apply_depositedValidatorCount {call : Call}
    (returned : call.apply river allowlist sender = .ok after) :
    after.depositedValidatorCount = river.depositedValidatorCount := by
  cases Call.apply_effect returned with
  | deposit depositing =>
      exact (depositFor_sameSettings depositing).depositedValidatorCount
  | transfer moving =>
      rw [(transfer_ok moving).2]
      rfl
  | transferFrom moving =>
      exact (transferFrom_sameSettings moving).depositedValidatorCount
  | _ => rfl

theorem setConfig_refused {sanitized : Except Error Unit}
    {config : RiverConfig} (sent : senders sender)
    (apart : river.config.administrable.Apart senders) :
    river.setConfig sender sanitized config ≠ .ok after := by
  intro returned
  simp only [setConfig, Administrable.onlyAdmin, bind_eq_ok, require_eq_ok]
    at returned
  obtain ⟨-, same, -⟩ := returned
  exact apart.admin (same ▸ sent)

/-- A call of a sender that is no administrator leaves the settings. -/
theorem Call.apply_config {call : Call} (sent : senders sender)
    (apart : river.config.administrable.Apart senders)
    (returned : call.apply river allowlist sender = .ok after) :
    after.config = river.config := by
  cases call with
  | deposit value => exact (depositFor_sameSettings returned).config
  | depositAndTransfer recipient value =>
      simp only [Call.apply, River.depositAndTransfer, bind_eq_ok]
        at returned
      obtain ⟨-, -, depositing⟩ := returned
      exact (depositFor_sameSettings depositing).config
  | transfer recipient value =>
      rw [(transfer_ok returned).2]
      rfl
  | transferFrom owner recipient value =>
      exact (transferFrom_sameSettings returned).config
  | approve spender value => exact approveFor_config returned
  | increaseAllowance spender additionalValue =>
      simp only [Call.apply, River.increaseAllowance, bind_eq_ok] at returned
      obtain ⟨value, -, approving⟩ := returned
      exact approveFor_config approving
  | decreaseAllowance spender subtractableValue =>
      simp only [Call.apply, River.decreaseAllowance, bind_eq_ok] at returned
      obtain ⟨value, -, approving⟩ := returned
      exact approveFor_config approving
  | proposeAdmin newAdmin =>
      simp only [Call.apply, Administrable.proposeAdmin,
        Administrable.onlyAdmin, bind_eq_ok, require_eq_ok] at returned
      obtain ⟨-, ⟨-, same, -⟩, -⟩ := returned
      exact absurd (same ▸ sent) apart.admin
  | acceptAdmin =>
      simp only [Call.apply, Administrable.acceptAdmin, bind_eq_ok,
        require_eq_ok] at returned
      obtain ⟨-, ⟨-, same, -⟩, -⟩ := returned
      exact absurd (same ▸ sent) apart.pendingAdmin
  | setGlobalFee newFee =>
      simp only [Call.apply, River.setGlobalFee, Administrable.onlyAdmin,
        bind_eq_ok, require_eq_ok] at returned
      obtain ⟨-, same, -⟩ := returned
      exact absurd (same ▸ sent) apart.admin
  | _ => exact absurd returned (setConfig_refused sent apart)

/-- What a run without reports does to River's books. -/
structure Unreported (river after : River) : Prop where
  lastConsensusLayerReport :
    after.lastConsensusLayerReport = river.lastConsensusLayerReport
  balanceToRedeem : after.balanceToRedeem = river.balanceToRedeem
  committed_le : after.committedBalance ≤ river.committedBalance
  toDeposit_le : river.balanceToDeposit ≤ after.balanceToDeposit
  shares_le : river.shares ≤ after.shares

theorem Unreported.refl (river : River) : Unreported river river :=
  ⟨rfl, rfl, le_rfl, le_rfl, le_rfl⟩

theorem Unreported.trans (first : Unreported river middle)
    (second : Unreported middle after) : Unreported river after where
  lastConsensusLayerReport :=
    second.lastConsensusLayerReport.trans first.lastConsensusLayerReport
  balanceToRedeem := second.balanceToRedeem.trans first.balanceToRedeem
  committed_le := second.committed_le.trans first.committed_le
  toDeposit_le := first.toDeposit_le.trans second.toDeposit_le
  shares_le := first.shares_le.trans second.shares_le

theorem Move.unreported {locked : Address} (move : Move locked river after) :
    Unreported river after := by
  cases move with
  | mint owner value =>
      exact ⟨rfl, rfl, le_rfl, Nat.le_add_right _ _, Nat.le_add_right _ _⟩
  | _ => exact ⟨rfl, rfl, le_rfl, le_rfl, le_rfl⟩

end River

namespace OperatorsRegistry

variable {registry after : OperatorsRegistry}

theorem pickNextValidatorsToDeposit_sameExits
    {allocations : List OperatorAllocation}
    {validators : List (Bytes × Bytes)} (tiered : registry.Tiered)
    (returned : registry.pickNextValidatorsToDeposit allocations =
      .ok (after, validators)) : SameExits registry after := by
  simp only [pickNextValidatorsToDeposit,
    getPerOperatorValidatorKeysForAllocations, bind_eq_ok, pure_eq_ok,
    Prod.mk.injEq] at returned
  obtain ⟨perOperator, ⟨-, -, picked⟩, funded, funding, rfl, -⟩ := returned
  obtain ⟨-, small⟩ := keysForEach_ok tiered.ordered picked
  obtain ⟨-, -, -, -, exits⟩ := fundEach_ok
    (fun pair member => small pair.2 (List.of_mem_zip member).2)
    tiered.ordered funding
  exact exits

theorem requestValidatorExits_demand_le {keeper sender : Address}
    {allocations : List OperatorAllocation} (tiered : registry.Tiered)
    (returned : registry.requestValidatorExits keeper sender allocations =
      .ok after) :
    after.stoppedValidators = registry.stoppedValidators ∧
      after.currentValidatorExitsDemand ≤
        registry.currentValidatorExitsDemand := by
  simp only [requestValidatorExits, bind_eq_ok, usub_eq_ok, pure_eq_ok,
    Prod.exists] at returned
  obtain ⟨-, -, -, -, -, -, requested, total, requesting, -, -, demand,
    ⟨-, rfl⟩, totalExits, -, rfl⟩ := returned
  obtain ⟨-, -, -, -, exits⟩ := requestEachExit_ok tiered.ordered requesting
  refine ⟨exits.stopped, ?_⟩
  rw [← exits.demand]
  exact Nat.sub_le _ _

end OperatorsRegistry

namespace RedeemManager

variable {manager middle after : RedeemManager}

/-- What a run without reports does to the redeem manager. -/
structure Unreported (manager after : RedeemManager) : Prop where
  withdrawalStack : after.withdrawalStack = manager.withdrawalStack
  demand_le : manager.redeemDemand ≤ after.redeemDemand

theorem claimRedeemRequests_unreported {E : Type} {river : RiverCalls E}
    {world worldAfter : E} {redeemRequestIds withdrawalEventIds : List Nat}
    {skipAlreadyClaimed : Bool} {depth : Nat} {statuses : List ClaimStatus}
    (returned : claimRedeemRequests river world manager redeemRequestIds
      withdrawalEventIds skipAlreadyClaimed depth =
        .ok (after, worldAfter, statuses)) : Unreported manager after := by
  refine claimRedeemRequests_induction
    (motive := fun next => Unreported manager next) ?_ ⟨rfl, le_rfl⟩ returned
  intro call world worldAfter before next id event _ _ kept run
  exact ⟨run.stack_same.trans kept.withdrawalStack,
    kept.demand_le.trans_eq run.demand_same.symm⟩

end RedeemManager

namespace System

variable {deployment : Deployment} {system middle after : System}

/-- A step whose sender is one of the senders. -/
inductive StepFrom (deployment : Deployment) (senders : Address → Prop) :
    System → System → Prop where
  | call {system after : System} {sender : Address} {call : Call} :
      deployment.External sender → senders sender →
      call.apply deployment system sender = .ok after →
      StepFrom deployment senders system after
  | consensusLayerWithdrawal {system : System} (amount : Nat) :
      StepFrom deployment senders system { system with
        withdraw := { system.withdraw with
          balance := system.withdraw.balance + amount } }
  | report {system after : System} {funds : ExternalFunds} {timestamp : Nat}
      {sender : Address} {report : ConsensusLayerReport}
      {trace : ReportingTrace} : senders sender →
      system.setConsensusLayerData deployment funds timestamp sender report =
        .ok (after, trace) → StepFrom deployment senders system after

abbrev RunFrom (deployment : Deployment) (senders : Address → Prop) :
    System → System → Prop :=
  Relation.ReflTransGen (StepFrom deployment senders)

theorem StepFrom.step (step : StepFrom deployment senders system after) :
    Step deployment system after := by
  cases step with
  | call external sent returned =>
      exact .operation (Call.operation external returned)
  | consensusLayerWithdrawal amount =>
      exact .operation (.consensusLayerWithdrawal amount)
  | report sent returned => exact .report returned

theorem reporter_is_oracle {funds : ExternalFunds} {timestamp : Nat}
    {sender : Address} {report : ConsensusLayerReport}
    {trace : ReportingTrace}
    (returned : system.setConsensusLayerData deployment funds timestamp
      sender report = .ok (after, trace)) :
    sender = system.river.config.oracle := by
  obtain ⟨prepared, increase, preparing, -⟩ :=
    setConsensusLayerData_ok returned
  simp only [prepareReport, River.checkReport, bind_eq_ok, require_eq_ok]
    at preparing
  obtain ⟨-, ⟨-, same, -⟩, -⟩ := preparing
  exact same

section Redeeming

variable {sender recipient initiator : Address} {lsETHAmount id : Nat}

theorem requestRedeemBy_sameSettings
    (returned : system.requestRedeemBy deployment sender lsETHAmount recipient
      initiator = .ok (after, id)) :
    system.river.SameSettings after.river ∧
      after.registry = system.registry := by
  obtain ⟨river, manager, transferred, -, rfl⟩ := requestRedeemBy_ok returned
  exact ⟨River.transferFrom_sameSettings transferred, rfl⟩

theorem requestRedeem_sameSettings
    (returned : system.requestRedeem deployment sender lsETHAmount recipient =
      .ok (after, id)) :
    system.river.SameSettings after.river ∧
      after.registry = system.registry := by
  obtain ⟨river, rfl, -, requested⟩ := requestRedeem_ok returned
  obtain ⟨⟨config, count⟩, registry⟩ :=
    requestRedeemBy_sameSettings requested
  exact ⟨⟨config, count⟩, registry⟩

theorem claimRedeemRequests_sameSettings {accepts : Address → Bool}
    {redeemRequestIds withdrawalEventIds : List Nat}
    {skipAlreadyClaimed : Bool} {depth : Nat} {statuses : List ClaimStatus}
    (returned : system.claimRedeemRequests deployment sender accepts
      redeemRequestIds withdrawalEventIds skipAlreadyClaimed depth =
        .ok (after, statuses)) :
    system.river.SameSettings after.river ∧
      after.registry = system.registry := by
  refine claimRedeemRequests_induction
    (motive := fun after => system.river.SameSettings after.river ∧
      after.registry = system.registry) ?_ ⟨⟨rfl, rfl⟩, rfl⟩ returned
  rintro call before world manager requestId eventId ⟨same, registry⟩ run
  rcases riverCalls_call run.paid with rfl | ⟨river, deposited, rfl⟩
  · exact ⟨same, registry⟩
  · have kept := River.depositFor_sameSettings deposited
    exact ⟨⟨kept.config.trans same.config,
      kept.depositedValidatorCount.trans same.depositedValidatorCount⟩,
      registry⟩

end Redeeming

section Report

variable {funds : ExternalFunds} {timestamp : Nat} {sender : Address}
  {report : ConsensusLayerReport} {trace : ReportingTrace}

theorem report_sameSettings (sound : Sound deployment system)
    (returned : system.setConsensusLayerData deployment funds timestamp
      sender report = .ok (after, trace)) :
    system.river.SameSettings after.river := by
  obtain ⟨run⟩ := setConsensusLayerData_run sound.registry returned
  have prepared : system.river.SameSettings run.prepared.river := by
    rw [run.stages.prepared_eq]
    exact ⟨rfl, rfl⟩
  rw [run.after_eq]
  rcases reportWithdrawToRedeemManager_ok run.withdrawing with
    ⟨same, -⟩ | ⟨amount, eth, withdrawal⟩
  · rw [same]
    exact ⟨prepared.config, prepared.depositedValidatorCount⟩
  · rw [withdrawal.after_eq]
    exact ⟨prepared.config, prepared.depositedValidatorCount⟩

end Report

/-- What a call does to River's settings and to the registry. -/
inductive Call.Use (sender : Address) (system after : System) : Prop where
  | neither : system.river.SameSettings after.river →
      after.registry = system.registry → Use sender system after
  | river {call : River.Call} :
      call.apply system.river system.allowlist sender = .ok after.river →
      after.registry = system.registry → Use sender system after
  | fund {allocations : List OperatorAllocation}
      {validators : List (Bytes × Bytes)} :
      sender = system.river.config.keeper →
      system.registry.pickNextValidatorsToDeposit allocations =
        .ok (after.registry, validators) →
      after.river.config = system.river.config → Use sender system after
  | exits {allocations : List OperatorAllocation} :
      sender = system.river.config.keeper →
      system.registry.requestValidatorExits system.river.config.keeper sender
        allocations = .ok after.registry →
      after.river = system.river → Use sender system after
  | manage {call : OperatorsRegistry.Call} {blockNumber : Nat} :
      call.apply system.registry sender blockNumber = .ok after.registry →
      after.river = system.river → Use sender system after

theorem Call.apply_use {sender : Address} {call : Call}
    (returned : call.apply deployment system sender = .ok after) :
    Call.Use sender system after := by
  cases call with
  | river call =>
      simp only [Call.apply, bind_eq_ok, pure_eq_ok] at returned
      obtain ⟨river, returned, rfl⟩ := returned
      exact .river returned rfl
  | requestRedeem lsETHAmount recipient =>
      simp only [Call.apply, bind_eq_ok, pure_eq_ok, Prod.exists] at returned
      obtain ⟨system, id, returned, rfl⟩ := returned
      obtain ⟨same, registry⟩ := requestRedeem_sameSettings returned
      exact .neither same registry
  | requestRedeemFor lsETHAmount recipient =>
      simp only [Call.apply, bind_eq_ok, pure_eq_ok, Prod.exists] at returned
      obtain ⟨system, id, returned, rfl⟩ := returned
      obtain ⟨same, registry⟩ :=
        requestRedeemBy_sameSettings (requestRedeemFor_ok returned)
      exact .neither same registry
  | requestRedeemSelf lsETHAmount =>
      simp only [Call.apply, bind_eq_ok, pure_eq_ok, Prod.exists] at returned
      obtain ⟨system, id, returned, rfl⟩ := returned
      obtain ⟨same, registry⟩ :=
        requestRedeemBy_sameSettings (requestRedeemSelf_ok returned)
      exact .neither same registry
  | claimRedeemRequests accepts redeemRequestIds withdrawalEventIds
      skipAlreadyClaimed depth =>
      simp only [Call.apply, bind_eq_ok, pure_eq_ok, Prod.exists] at returned
      obtain ⟨system, statuses, returned, rfl⟩ := returned
      obtain ⟨same, registry⟩ := claimRedeemRequests_sameSettings returned
      exact .neither same registry
  | wrap recipient shares =>
      obtain ⟨wlseth, river, minting, rfl⟩ := wrap_ok returned
      obtain ⟨-, transferred, -⟩ := WLSETH.mint_ok minting
      exact .neither (River.transferFrom_sameSettings transferred) rfl
  | unwrap recipient shares =>
      obtain ⟨wlseth, river, burning, rfl⟩ := unwrap_ok returned
      obtain ⟨-, transferred, -⟩ := WLSETH.burn_ok burning
      obtain ⟨-, rfl⟩ := River.transfer_ok transferred
      exact .neither ⟨rfl, rfl⟩ rfl
  | wrapper call =>
      simp only [Call.apply, bind_eq_ok, pure_eq_ok] at returned
      obtain ⟨wlseth, returned, rfl⟩ := returned
      exact .neither ⟨rfl, rfl⟩ rfl
  | depositToConsensusLayer contract allocations depositRoot =>
      obtain ⟨registry, validators, picked, -, -, rfl⟩ :=
        depositToConsensusLayer_moves returned
      simp only [Call.apply, System.depositToConsensusLayer, bind_eq_ok,
        require_eq_ok] at returned
      obtain ⟨-, keeper, -⟩ := returned
      exact .fund keeper picked rfl
  | requestValidatorExits allocations =>
      simp only [Call.apply, bind_eq_ok, pure_eq_ok] at returned
      obtain ⟨registry, returned, rfl⟩ := returned
      have requesting := returned
      simp only [OperatorsRegistry.requestValidatorExits, bind_eq_ok,
        require_eq_ok] at requesting
      obtain ⟨-, keeper, -⟩ := requesting
      exact .exits keeper returned rfl
  | registry blockNumber call =>
      simp only [Call.apply, bind_eq_ok, pure_eq_ok] at returned
      obtain ⟨registry, returned, rfl⟩ := returned
      exact .manage returned rfl
  | allowlist account call =>
      simp only [Call.apply, bind_eq_ok, pure_eq_ok] at returned
      obtain ⟨allowlist, returned, rfl⟩ := returned
      exact .neither ⟨rfl, rfl⟩ rfl

theorem StepFrom.config (sound : Sound deployment system)
    (apart : system.river.config.administrable.Apart senders)
    (step : StepFrom deployment senders system after) :
    after.river.config = system.river.config := by
  cases step with
  | consensusLayerWithdrawal amount => rfl
  | report sent returned => exact (report_sameSettings sound returned).config
  | call external sent returned =>
      cases Call.apply_use returned with
      | neither same => exact same.config
      | river returned => exact River.Call.apply_config sent apart returned
      | fund keeper picked config => exact config
      | exits keeper returned river => rw [river]
      | manage returned river => rw [river]

/-- Without an administrator of the registry among the senders every operator
is edited by itself alone. -/
theorem StepFrom.registry (tiered : system.registry.Tiered)
    (apart : system.registry.administrable.Apart senders)
    (step : StepFrom deployment senders system after) :
    OperatorsRegistry.EditedBy senders system.registry after.registry := by
  cases step with
  | consensusLayerWithdrawal amount => exact .refl _ _
  | report sent returned =>
      obtain ⟨reported, reporting, demanded⟩ := report_exitStage returned
      have edited : OperatorsRegistry.EditedBy senders system.registry
          reported :=
        OperatorsRegistry.reportStoppedValidatorCounts_editedBy tiered
          reporting
      rcases demanded with same | ⟨-, count, demanding⟩
      · rw [same]
        exact edited
      · exact edited.trans
          (OperatorsRegistry.demandValidatorExits_editedBy demanding)
  | call external sent returned =>
      cases Call.apply_use returned with
      | neither same registry =>
          rw [registry]
          exact .refl _ _
      | river returned registry =>
          rw [registry]
          exact .refl _ _
      | fund keeper picked config =>
          exact OperatorsRegistry.pickNextValidatorsToDeposit_editedBy tiered
            picked
      | exits keeper returned river =>
          exact OperatorsRegistry.requestValidatorExits_editedBy tiered
            returned
      | manage returned river =>
          exact OperatorsRegistry.Call.apply_editedBy sent apart tiered
            returned

/-- River's count of validators and the funded counts are kept. -/
structure Undeposited (system after : System) : Prop where
  depositedValidatorCount : after.river.depositedValidatorCount =
    system.river.depositedValidatorCount
  funded : system.registry.KeepsFundedCounts after.registry

theorem report_undeposited {funds : ExternalFunds} {timestamp : Nat}
    {sender : Address} {report : ConsensusLayerReport}
    {trace : ReportingTrace} (reachable : Reachable deployment system)
    (returned : system.setConsensusLayerData deployment funds timestamp
      sender report = .ok (after, trace)) : Undeposited system after := by
  have sound := Sound.of_reachable reachable
  have tiered := (registry_reachable reachable).tiered
  refine ⟨(report_sameSettings sound returned).depositedValidatorCount, ?_⟩
  obtain ⟨reported, reporting, demanded⟩ := report_exitStage returned
  have applied : OperatorsRegistry.Action.apply
      (.reportStoppedValidatorCounts report.stoppedValidatorCountPerOperator
        system.river.depositedValidatorCount) system.registry 0 =
      .ok (reported, []) := by
    simp only [OperatorsRegistry.Action.apply, reporting]
    rfl
  have kept := OperatorsRegistry.Action.apply_keepsFundedCounts tiered
    (by rintro _ ⟨⟩) applied
  rcases demanded with same | ⟨-, count, demanding⟩
  · rw [same]
    exact kept
  · obtain ⟨operators, -, -⟩ :=
      OperatorsRegistry.demandValidatorExits_frame demanding
    rw [OperatorsRegistry.KeepsFundedCounts, operators]
    exact kept

/-- Without the keeper among the senders nothing is deposited. -/
theorem StepFrom.undeposited (reachable : Reachable deployment system)
    (notKeeper : ¬ senders system.river.config.keeper)
    (step : StepFrom deployment senders system after) :
    Undeposited system after := by
  have tiered := (registry_reachable reachable).tiered
  cases step with
  | consensusLayerWithdrawal amount => exact ⟨rfl, .refl _⟩
  | report sent returned => exact report_undeposited reachable returned
  | call external sent returned =>
      cases Call.apply_use returned with
      | neither same registry =>
          refine ⟨same.depositedValidatorCount, ?_⟩
          rw [registry]
          exact .refl _
      | river returned registry =>
          refine ⟨River.Call.apply_depositedValidatorCount returned, ?_⟩
          rw [registry]
          exact .refl _
      | fund keeper picked config => exact absurd (keeper ▸ sent) notKeeper
      | exits keeper returned river =>
          exact absurd (keeper ▸ sent) notKeeper
      | manage returned river =>
          refine ⟨congrArg River.depositedValidatorCount river, ?_⟩
          exact OperatorsRegistry.Action.apply_keepsFundedCounts tiered
            (by rintro _ ⟨⟩) (OperatorsRegistry.Call.action returned)

/-- What a run without reports does. -/
structure Unreported (system after : System) : Prop where
  river : system.river.Unreported after.river
  redeemManager : system.redeemManager.Unreported after.redeemManager
  stoppedValidators : after.registry.stoppedValidators =
    system.registry.stoppedValidators
  demand_le : after.registry.currentValidatorExitsDemand ≤
    system.registry.currentValidatorExitsDemand
  pulled : after.withdraw.pulled = system.withdraw.pulled

theorem Unreported.refl (system : System) : Unreported system system :=
  ⟨.refl _, ⟨rfl, le_rfl⟩, rfl, le_rfl, rfl⟩

theorem Unreported.trans (first : Unreported system middle)
    (second : Unreported middle after) : Unreported system after where
  river := first.river.trans second.river
  redeemManager :=
    ⟨second.redeemManager.withdrawalStack.trans
        first.redeemManager.withdrawalStack,
      first.redeemManager.demand_le.trans second.redeemManager.demand_le⟩
  stoppedValidators :=
    second.stoppedValidators.trans first.stoppedValidators
  demand_le := second.demand_le.trans first.demand_le
  pulled := second.pulled.trans first.pulled

theorem Move.unreported (move : Move deployment system after) :
    system.river.Unreported after.river ∧
      after.withdraw.pulled = system.withdraw.pulled := by
  cases move with
  | river move => exact ⟨move.unreported, rfl⟩
  | fund picked committed held =>
      exact ⟨⟨rfl, rfl, Nat.sub_le _ _, le_rfl, le_rfl⟩, rfl⟩
  | _ => exact ⟨⟨rfl, rfl, le_rfl, le_rfl, le_rfl⟩, rfl⟩

theorem Operation.redeemManager_unreported (sound : Sound deployment system)
    (operation : Operation deployment system after) :
    system.redeemManager.Unreported after.redeemManager := by
  cases operation.redeemUse sound with
  | unused same =>
      rw [same]
      exact ⟨rfl, le_rfl⟩
  | request held same requested =>
      obtain ⟨river, manager, -, requesting, rfl⟩ :=
        requestRedeemBy_ok requested
      obtain ⟨-, -, -, -, height, maximum, -, -, -, rfl⟩ :=
        RedeemManager.requestRedeem_eq_ok.mp requesting
      rw [← same]
      exact ⟨rfl, Nat.le_add_right _ _⟩
  | claim claimed =>
      exact RedeemManager.claimRedeemRequests_unreported claimed

theorem Call.apply_unreported {sender : Address} {call : Call}
    (reachable : Reachable deployment system)
    (external : deployment.External sender)
    (returned : call.apply deployment system sender = .ok after) :
    Unreported system after := by
  have sound := Sound.of_reachable reachable
  have tiered := (registry_reachable reachable).tiered
  have operation := Call.operation external returned
  obtain ⟨river, pulled⟩ : system.river.Unreported after.river ∧
      after.withdraw.pulled = system.withdraw.pulled := by
    have moves := operation.moves sound.river.no_approval
    clear operation returned
    induction moves with
    | refl => exact ⟨.refl _, rfl⟩
    | tail _ move induction =>
        exact ⟨induction.1.trans move.unreported.1,
          move.unreported.2.trans induction.2⟩
  obtain ⟨stopped, demand⟩ : after.registry.stoppedValidators =
      system.registry.stoppedValidators ∧
      after.registry.currentValidatorExitsDemand ≤
        system.registry.currentValidatorExitsDemand := by
    cases Call.apply_use returned with
    | neither same registry =>
        rw [registry]
        exact ⟨rfl, le_rfl⟩
    | river returned registry =>
        rw [registry]
        exact ⟨rfl, le_rfl⟩
    | fund keeper picked config =>
        have exits :=
          OperatorsRegistry.pickNextValidatorsToDeposit_sameExits tiered
            picked
        exact ⟨exits.stopped, exits.demand.le⟩
    | exits keeper returned river =>
        exact OperatorsRegistry.requestValidatorExits_demand_le tiered
          returned
    | manage returned river =>
        have exits := OperatorsRegistry.sameExits_of_managed
          (OperatorsRegistry.Call.apply_managed returned)
        exact ⟨exits.stopped, exits.demand.le⟩
  exact ⟨river, operation.redeemManager_unreported sound, stopped, demand,
    pulled⟩

theorem StepFrom.unreported (reachable : Reachable deployment system)
    (notOracle : ¬ senders system.river.config.oracle)
    (step : StepFrom deployment senders system after) :
    Unreported system after := by
  cases step with
  | consensusLayerWithdrawal amount =>
      exact ⟨.refl _, ⟨rfl, le_rfl⟩, rfl, le_rfl, rfl⟩
  | report sent returned =>
      exact absurd (reporter_is_oracle returned ▸ sent) notOracle
  | call external sent returned =>
      exact Call.apply_unreported reachable external returned

/-- Without the oracle and the keeper no exit is requested. -/
theorem StepFrom.unrequested (reachable : Reachable deployment system)
    (notOracle : ¬ senders system.river.config.oracle)
    (notKeeper : ¬ senders system.river.config.keeper)
    (step : StepFrom deployment senders system after) (index : Nat) :
    after.registry.requestedExitsOf index =
      system.registry.requestedExitsOf index := by
  have tiered := (registry_reachable reachable).tiered
  cases step with
  | consensusLayerWithdrawal amount => rfl
  | report sent returned =>
      exact absurd (reporter_is_oracle returned ▸ sent) notOracle
  | call external sent returned =>
      have stopped :=
        (Call.apply_unreported reachable external returned).stoppedValidators
      cases Call.apply_use returned with
      | neither same registry => rw [registry]
      | river returned registry => rw [registry]
      | fund keeper picked config =>
          exact absurd (keeper ▸ sent) notKeeper
      | exits keeper returned river =>
          exact absurd (keeper ▸ sent) notKeeper
      | manage returned river =>
          rw [OperatorsRegistry.Action.apply_requestedExits tiered
            (by rintro _ _ _ ⟨⟩) (OperatorsRegistry.Call.action returned)
            index,
            OperatorsRegistry.getStoppedValidatorsCount, stopped]
          exact max_eq_left (tiered.stopped_le_requestedExitsOf index)

theorem reachable_of_runFrom (reachable : Reachable deployment system)
    (run : RunFrom deployment senders system after) :
    Reachable deployment after := by
  induction run with
  | refl => exact reachable
  | tail _ step induction => exact induction.tail step.step

/-- In a run from some senders: without an administrator of River its settings
stay, and then without the oracle nothing is reported, without the keeper
nothing is deposited, and without either no exit is requested.  Without an
administrator of the registry every operator is edited by itself alone. -/
theorem powers_separated {reached : System}
    (reachable : Reachable deployment system)
    (run : RunFrom deployment senders system reached) :
    (system.river.config.administrable.Apart senders →
      reached.river.config = system.river.config ∧
      (¬ senders system.river.config.oracle → Unreported system reached) ∧
      (¬ senders system.river.config.keeper → Undeposited system reached) ∧
      (¬ senders system.river.config.oracle →
        ¬ senders system.river.config.keeper →
        ∀ index, reached.registry.requestedExitsOf index =
          system.registry.requestedExitsOf index)) ∧
    (system.registry.administrable.Apart senders →
      OperatorsRegistry.EditedBy senders system.registry
        reached.registry) := by
  induction run with
  | refl =>
      exact ⟨fun _ => ⟨rfl, fun _ => .refl _, fun _ => ⟨rfl, .refl _⟩,
        fun _ _ _ => rfl⟩, fun _ => .refl _ _⟩
  | tail run step induction =>
      have before := reachable_of_runFrom reachable run
      obtain ⟨river, registry⟩ := induction
      refine ⟨fun apart => ?_, fun apart => ?_⟩
      · obtain ⟨config, unreported, undeposited, unrequested⟩ := river apart
        rw [← config] at apart
        refine ⟨(step.config (Sound.of_reachable before) apart).trans config,
          fun notOracle => ?_, fun notKeeper => ?_,
          fun notOracle notKeeper index => ?_⟩
        · have silent := notOracle
          rw [← config] at silent
          exact (unreported notOracle).trans (step.unreported before silent)
        · have silent := notKeeper
          rw [← config] at silent
          have first := undeposited notKeeper
          have next := step.undeposited before silent
          exact ⟨next.depositedValidatorCount.trans
            first.depositedValidatorCount, first.funded.trans next.funded⟩
        · have first := unrequested notOracle notKeeper index
          rw [← config] at notOracle notKeeper
          exact (step.unrequested before notOracle notKeeper index).trans
            first
      · have edited := registry apart
        rw [← edited.administrable] at apart
        exact edited.trans
          (step.registry (registry_reachable before).tiered apart)

section Sample

open RedeemManager (alice)

/-- Alice and the operator of the sample. -/
def sampleSenders (account : Address) : Prop :=
  account = alice ∨ account = .ofNat 20

instance (account : Address) : Decidable (sampleSenders account) :=
  inferInstanceAs (Decidable (_ ∨ _))

/-- The operator renames itself, then Alice deposits. -/
theorem powers_separated_sample : ∃ system reached,
    sampleDemanded = .ok system ∧
      RunFrom sample sampleSenders system reached ∧
      reached.river.config = system.river.config ∧
      Unreported system reached ∧ Undeposited system reached ∧
      OperatorsRegistry.EditedBy sampleSenders system.registry
        reached.registry := by
  have checked : returns sampleDemanded (fun system =>
      returns (Call.apply (.registry 5 (.setOperatorName 0 "other")) sample
        system (.ofNat 20)) fun named =>
          returns (Call.apply (.river (.deposit depositSize)) sample named
            alice) fun _ =>
              system.river.config.administrable =
                  sampleConfig.administrable ∧
                system.registry.administrable =
                  sampleConfig.administrable ∧
                ¬ sampleSenders system.river.config.oracle ∧
                ¬ sampleSenders system.river.config.keeper) = true := by
    decide +kernel
  obtain ⟨system, returned, facts⟩ := returns_iff.mp checked
  obtain ⟨named, naming, facts⟩ := returns_iff.mp facts
  obtain ⟨reached, depositing, facts⟩ := returns_iff.mp facts
  obtain ⟨river, registry, notOracle, notKeeper⟩ := of_decide_eq_true facts
  have run : RunFrom sample sampleSenders system reached := by
    refine .tail (.single (.call ?_ (.inr rfl) naming))
      (.call ?_ (.inl rfl) depositing)
    · decide
    · decide
  have apart : sampleConfig.administrable.Apart sampleSenders :=
    ⟨by decide, by decide⟩
  obtain ⟨settings, operators⟩ :=
    powers_separated (sampleDemanded_reachable returned) run
  obtain ⟨config, unreported, undeposited, -⟩ := settings (river ▸ apart)
  exact ⟨system, reached, returned, run, config, unreported notOracle,
    undeposited notKeeper, operators (registry ▸ apart)⟩

end Sample

end System

end RiverProtocol
