import RiverProtocol.System.Containment

/-!
# Exit requests under slashing containment

A contained report demands no exits, but the keeper may still request the ones
demanded before it.  Every other call of the period leaves the demand and
raises an operator's requested exits to its stopped count at most.
-/

namespace RiverProtocol

open Checked Outcome

namespace OperatorsRegistry

/-- The exits requested of the operator with this index, or zero where there
is none. -/
def requestedExitsOf (registry : OperatorsRegistry) (index : Nat) : Nat :=
  (registry.operators[index]?.map Operator.requestedExits).getD 0

/-- No exit is demanded, and requested exits only follow the stopped
counts. -/
structure NoNewExits (registry after : OperatorsRegistry) : Prop where
  demand :
    after.currentValidatorExitsDemand ≤ registry.currentValidatorExitsDemand
  requested : ∀ index, after.requestedExitsOf index =
    max (registry.requestedExitsOf index)
      (after.getStoppedValidatorsCount index)

section NoNewExits

variable {registry middle after : OperatorsRegistry} {blockNumber : Nat}

theorem requestedExitsOf_of_found {index : Nat} {operator : Operator}
    (found : registry.operators[index]? = some operator) :
    registry.requestedExitsOf index = operator.requestedExits := by
  rw [requestedExitsOf, found]
  rfl

theorem Tiered.stopped_le_requestedExitsOf (tiered : registry.Tiered)
    (index : Nat) :
    registry.getStoppedValidatorsCount index ≤
      registry.requestedExitsOf index := by
  by_cases inside : index < registry.operators.length
  · have found := List.getElem?_eq_getElem inside
    rw [requestedExitsOf_of_found found]
    exact (tiered.of_found found).stopped_le
  · rw [getStoppedValidatorsCount_of_length
      (tiered.stopped_length.trans (by omega))]
    exact Nat.zero_le _

theorem NoNewExits.refl (tiered : registry.Tiered) :
    NoNewExits registry registry where
  demand := Nat.le_refl _
  requested index :=
    (max_eq_left (tiered.stopped_le_requestedExitsOf index)).symm

theorem NoNewExits.trans (first : NoNewExits registry middle)
    (second : NoNewExits middle after)
    (grown : ∀ index, middle.getStoppedValidatorsCount index ≤
      after.getStoppedValidatorsCount index) : NoNewExits registry after where
  demand := second.demand.trans first.demand
  requested index := by
    rw [second.requested index, first.requested index, max_assoc,
      max_eq_right (grown index)]

theorem Change.requestedExits {index : Nat} {action : Action}
    {holding later : Holding} (tiered : holding.Tiered)
    (quiet : ∀ keeper sender allocations,
      action ≠ .requestValidatorExits keeper sender allocations)
    (change : Change blockNumber index action holding later) :
    later.operator.requestedExits =
      max holding.operator.requestedExits later.stopped := by
  have below := tiered.stopped_le
  cases change with
  | renamed _ _ requested =>
      exact requested.trans (max_eq_left below).symm
  | exitsRequested => exact absurd rfl (quiet _ _ _)
  | stopped => rfl
  | _ => exact (max_eq_left below).symm

/-- Of all actions only `requestValidatorExits` raises requested exits above
the stopped counts. -/
theorem Action.apply_requestedExits {action : Action}
    {validators : List (Bytes × Bytes)} (tiered : registry.Tiered)
    (quiet : ∀ keeper sender allocations,
      action ≠ .requestValidatorExits keeper sender allocations)
    (returned : action.apply registry blockNumber =
      .ok (after, validators)) (index : Nat) :
    after.requestedExitsOf index = max (registry.requestedExitsOf index)
      (after.getStoppedValidatorsCount index) := by
  have evolves := Action.apply_evolves tiered returned
  have tieredAfter := tiered.of_evolves evolves
  by_cases inside : index < registry.operators.length
  · have found := List.getElem?_eq_getElem inside
    have held : registry.holding index = some
        { operator := registry.operators[index]
          entries := registry.validatorKeys index
          stopped := registry.getStoppedValidatorsCount index } := by
      rw [holding, found]
      rfl
    obtain ⟨later, heldLater, changes⟩ := evolves.changed index _ held
    have raised : later.Tiered ∧ later.operator.requestedExits =
        max registry.operators[index].requestedExits later.stopped := by
      clear heldLater
      induction changes with
      | refl =>
          have first := tiered.of_found found
          exact ⟨first, (max_eq_left first.stopped_le).symm⟩
      | tail _ change induction =>
          obtain ⟨tieredMiddle, middle⟩ := induction
          refine ⟨change.tiered tieredMiddle, ?_⟩
          rw [change.requestedExits tieredMiddle quiet, middle, max_assoc,
            max_eq_right change.stopped_le]
    rw [holding, Option.map_eq_some_iff] at heldLater
    obtain ⟨operator, foundLater, rfl⟩ := heldLater
    rw [requestedExitsOf_of_found found, requestedExitsOf_of_found foundLater]
    exact raised.2
  · have outside := Nat.le_of_not_lt inside
    have none : registry.requestedExitsOf index = 0 := by
      rw [requestedExitsOf, List.getElem?_eq_none outside]
      rfl
    have unstopped : after.getStoppedValidatorsCount index = 0 := by
      apply getStoppedValidatorsCount_of_length
      have within := evolves.stopped_within tiered.stopped_length
      omega
    rw [none, unstopped]
    cases present : after.operators[index]? with
    | none =>
        rw [requestedExitsOf, present]
        rfl
    | some operator =>
        rw [requestedExitsOf_of_found present]
        exact (evolves.added index operator outside present).requestedExits

/-- A request of exits needs demand and raises some operator's requested
exits above its stopped count. -/
theorem requestValidatorExits_raises {keeper sender : Address}
    {allocations : List OperatorAllocation} (tiered : registry.Tiered)
    (returned : registry.requestValidatorExits keeper sender allocations =
      .ok after) :
    registry.currentValidatorExitsDemand ≠ 0 ∧
      ∃ index, registry.requestedExitsOf index <
          after.requestedExitsOf index ∧
        after.getStoppedValidatorsCount index ≤
          registry.requestedExitsOf index := by
  simp only [requestValidatorExits, bind_eq_ok, require_eq_ok, usub_eq_ok,
    uadd_eq_ok, pure_eq_ok, Prod.exists] at returned
  obtain ⟨-, -, -, demanded, -, nonempty, requested, total, requesting, -, -,
    demand, ⟨-, rfl⟩, totalExits, ⟨-, rfl⟩, rfl⟩ := returned
  obtain ⟨-, -, -, -, exits⟩ := requestEachExit_ok tiered.ordered requesting
  obtain ⟨-, each⟩ := requestEachExit_eq tiered.ordered requesting
  refine ⟨demanded, ?_⟩
  cases allocations with
  | nil => exact absurd rfl nonempty
  | cons allocation rest =>
      obtain ⟨operator, found, positive, -⟩ :=
        requestEachExit_cons tiered.ordered requesting
      obtain ⟨-, edited⟩ := each allocation.operatorIndex operator found
      refine ⟨allocation.operatorIndex, ?_, ?_⟩
      · have raised : requestedExitsOf { requested with
            totalValidatorExitsRequested :=
              requested.totalValidatorExitsRequested + total
            currentValidatorExitsDemand :=
              requested.currentValidatorExitsDemand - total }
            allocation.operatorIndex = _ := requestedExitsOf_of_found edited
        rw [raised, requestedExitsOf_of_found found, allocatedTo_cons,
          if_pos rfl]
        dsimp only
        omega
      · have stopped := tiered.stopped_le_requestedExitsOf
          allocation.operatorIndex
        rw [getStoppedValidatorsCount] at stopped ⊢
        dsimp only
        rw [exits.stopped]
        exact stopped

end NoNewExits

end OperatorsRegistry

namespace System

open OperatorsRegistry (NoNewExits)

variable {deployment : Deployment} {system after : System}

/-- The keeper requests exits that were demanded before. -/
def RequestsExits (system after : System) : Prop :=
  ∃ (sender : Address) (allocations : List OperatorAllocation)
    (registry : OperatorsRegistry),
    system.registry.requestValidatorExits system.river.config.keeper sender
      allocations = .ok registry ∧ after = { system with registry := registry }

theorem Operation.noNewExits
    (contained : system.river.slashingContainmentMode = true)
    (tiered : system.registry.Tiered)
    (operation : Operation deployment system after) :
    RequestsExits system after ∨
      NoNewExits system.registry after.registry := by
  have same : ∀ {other : System}, other.registry = system.registry →
      NoNewExits system.registry other.registry := by
    intro other unchanged
    rw [unchanged]
    exact .refl tiered
  cases operation with
  | requestValidatorExits external returned =>
      exact .inl ⟨_, _, _, returned, rfl⟩
  | @registry registry sender blockNumber call external returned =>
      have applied : OperatorsRegistry.Action.apply (.manage sender call)
          system.registry blockNumber = .ok (registry, []) := by
        simp only [OperatorsRegistry.Action.apply, returned]
        rfl
      have exits := OperatorsRegistry.sameExits_of_managed
        (OperatorsRegistry.Call.apply_managed returned)
      exact .inr ⟨Nat.le_of_eq exits.demand,
        OperatorsRegistry.Action.apply_requestedExits tiered
          (by rintro _ _ _ ⟨⟩) applied⟩
  | requestRedeem external returned =>
      simp [System.requestRedeem, contained] at returned
  | requestRedeemFor external returned =>
      simp [System.requestRedeemFor, contained] at returned
  | requestRedeemSelf external returned =>
      simp [System.requestRedeemSelf, contained] at returned
  | depositToConsensusLayer external returned =>
      simp [System.depositToConsensusLayer, contained] at returned
  | claimRedeemRequests external returned =>
      obtain ⟨world, -⟩ := claimRedeemRequests_contained contained returned
      exact .inr (same (congrArg World.registry world))
  | wrap external returned =>
      obtain ⟨wlseth, river, -, rfl⟩ := wrap_ok returned
      exact .inr (same rfl)
  | unwrap external returned =>
      obtain ⟨wlseth, river, -, rfl⟩ := unwrap_ok returned
      exact .inr (same rfl)
  | river external returned => exact .inr (same rfl)
  | wrapper external returned => exact .inr (same rfl)
  | allowlist external returned => exact .inr (same rfl)
  | consensusLayerWithdrawal amount => exact .inr (same rfl)

theorem report_noNewExits {funds : ExternalFunds} {timestamp : Nat}
    {sender : Address} {report : ConsensusLayerReport}
    {trace : ReportingTrace} (tiered : system.registry.Tiered)
    (returned : system.setConsensusLayerData deployment funds timestamp
      sender report = .ok (after, trace))
    (contained : report.slashingContainmentMode = true) :
    NoNewExits system.registry after.registry := by
  obtain ⟨reported, reporting, same | ⟨uncontained, -⟩⟩ :=
    report_exitStage returned
  · have applied : OperatorsRegistry.Action.apply
        (.reportStoppedValidatorCounts report.stoppedValidatorCountPerOperator
          system.river.depositedValidatorCount) system.registry 0 =
        .ok (reported, []) := by
      simp only [OperatorsRegistry.Action.apply, reporting]
      rfl
    rw [same]
    refine ⟨?_, OperatorsRegistry.Action.apply_requestedExits tiered
      (by rintro _ _ _ ⟨⟩) applied⟩
    cases stopped : report.stoppedValidatorCountPerOperator with
    | nil =>
        rw [stopped] at reporting
        cases reporting
    | cons total counts =>
        rw [stopped] at reporting
        obtain ⟨-, demand⟩ :=
          OperatorsRegistry.reportStoppedValidatorCounts_totals reporting
        omega
  · rw [contained] at uncontained
    exact Bool.noConfusion uncontained

/-- A contained step that requests no exits. -/
def QuietStep (deployment : Deployment) (system after : System) : Prop :=
  ContainedStep deployment system after ∧ ¬ RequestsExits system after

theorem ContainedStep.noNewExits
    (contained : system.river.slashingContainmentMode = true)
    (tiered : system.registry.Tiered)
    (step : ContainedStep deployment system after) :
    RequestsExits system after ∨
      NoNewExits system.registry after.registry := by
  cases step with
  | operation operation => exact operation.noNewExits contained tiered
  | report returned set => exact .inr (report_noNewExits tiered returned set)

theorem RequestsExits.not_noNewExits (tiered : system.registry.Tiered)
    (requests : RequestsExits system after) :
    ¬ NoNewExits system.registry after.registry := by
  obtain ⟨sender, allocations, registry, returned, rfl⟩ := requests
  obtain ⟨-, index, raised, stopped⟩ :=
    OperatorsRegistry.requestValidatorExits_raises tiered returned
  intro quiet
  have followed := quiet.requested index
  dsimp only at followed
  omega

theorem noNewExits_of_quiet {started reached : System}
    (reachable : Reachable deployment started)
    (mode : started.river.slashingContainmentMode = true)
    (run : Relation.ReflTransGen (QuietStep deployment) started reached) :
    ContainedRun deployment started reached ∧
      NoNewExits started.registry reached.registry := by
  have tiered := (registry_reachable reachable).tiered
  induction run with
  | refl => exact ⟨.refl, .refl tiered⟩
  | tail _ quiet induction =>
      obtain ⟨step, silent⟩ := quiet
      obtain ⟨before, exits⟩ := induction
      have middle := before.reachable reachable
      have tieredMiddle := (registry_reachable middle).tiered
      have next := (step.noNewExits (before.contained mode).mode
        tieredMiddle).resolve_left silent
      refine ⟨before.tail step, exits.trans next ?_⟩
      obtain ⟨-, -, grows, -⟩ := OperatorsRegistry.counters_of_reachable
        (registry_reachable middle)
      exact (grows _ (step.step.registry (Sound.of_reachable middle))).2.1

/-- Under containment no demand rises and requested exits only follow the
stopped counts in every run in which the keeper requests no exits, as in every
run that starts without demand; a step that requests exits breaks this. -/
theorem containment_exits_iff {started : System} {funds : ExternalFunds}
    {timestamp : Nat} {sender : Address} {report : ConsensusLayerReport}
    {trace : ReportingTrace} (reachable : Reachable deployment system)
    (accepted : system.setConsensusLayerData deployment funds timestamp
      sender report = .ok (started, trace))
    (contained : report.slashingContainmentMode = true) :
    NoNewExits system.registry started.registry ∧
    (∀ reached, Relation.ReflTransGen (QuietStep deployment) started reached →
      NoNewExits started.registry reached.registry) ∧
    (∀ reached after, ContainedRun deployment started reached →
      ContainedStep deployment reached after →
      (NoNewExits reached.registry after.registry ↔
        ¬ RequestsExits reached after)) ∧
    (started.registry.currentValidatorExitsDemand = 0 →
      ∀ reached, ContainedRun deployment started reached →
        Relation.ReflTransGen (QuietStep deployment) started reached) := by
  have after : Reachable deployment started :=
    reachable.tail (.report accepted)
  obtain ⟨first⟩ := containedReport_of_returned accepted contained
  have mode := first.reported.mode.trans contained
  refine ⟨report_noNewExits (registry_reachable reachable).tiered accepted
    contained, ?_, ?_, ?_⟩
  · intro reached run
    exact (noNewExits_of_quiet after mode run).2
  · intro reached next run step
    have tiered := (registry_reachable (run.reachable after)).tiered
    constructor
    · intro quiet requests
      exact requests.not_noNewExits tiered quiet
    · exact (step.noNewExits (run.contained mode).mode tiered).resolve_left
  · intro none reached run
    induction run with
    | refl => exact .refl
    | tail run step induction =>
        refine induction.tail ⟨step, ?_⟩
        rintro ⟨sender, allocations, registry, returned, -⟩
        obtain ⟨-, exits⟩ := noNewExits_of_quiet after mode induction
        obtain ⟨demanded, -⟩ :=
          OperatorsRegistry.requestValidatorExits_raises
            (registry_reachable
              (ContainedRun.reachable after run)).tiered returned
        exact demanded (Nat.le_zero.mp (none ▸ exits.demand))

section Sample

theorem containment_exits_iff_sample : ∃ system started trace,
    sampleServed RedeemManager.alice = .ok system ∧
      system.setConsensusLayerData sample (feesUpTo 0) 1000000 (.ofNat 11)
        containingReport = .ok (started, trace) ∧
      ∀ reached, ContainedRun sample started reached →
        NoNewExits started.registry reached.registry := by
  have checked : returns (sampleServed RedeemManager.alice) (fun system =>
      returns (system.setConsensusLayerData sample (feesUpTo 0) 1000000
        (.ofNat 11) containingReport) fun result =>
          result.1.registry.currentValidatorExitsDemand = 0) = true := by
    decide +kernel
  obtain ⟨system, returned, facts⟩ := returns_iff.mp checked
  obtain ⟨⟨started, trace⟩, accepted, demand⟩ := returns_iff.mp facts
  obtain ⟨-, exits, -, quiet⟩ :=
    containment_exits_iff (sampleServed_reachable returned) accepted rfl
  refine ⟨system, started, trace, returned, accepted, ?_⟩
  intro reached run
  exact exits reached (quiet (of_decide_eq_true demand) reached run)

/-- The exit demanded before a contained report is requested after it. -/
theorem keeper_requests_contained_exits : ∃ system started trace after,
    Reachable sample system ∧
      system.setConsensusLayerData sample (feesUpTo 0) 1000000 (.ofNat 11)
        (validatorReport 675 true) = .ok (started, trace) ∧
      Operation sample started after ∧
      started.registry.requestedExitsOf 0 = 0 ∧
      after.registry.requestedExitsOf 0 = 1 ∧
      after.registry.getStoppedValidatorsCount 0 = 0 ∧
      ¬ NoNewExits started.registry after.registry := by
  have checked : returns sampleDemanded (fun system =>
      returns (system.setConsensusLayerData sample (feesUpTo 0) 1000000
        (.ofNat 11) (validatorReport 675 true)) fun result =>
          returns (result.1.registry.requestValidatorExits
            result.1.river.config.keeper (.ofNat 12) [⟨0, 1⟩])
            fun registry => result.1.registry.requestedExitsOf 0 = 0 ∧
              registry.requestedExitsOf 0 = 1 ∧
              registry.getStoppedValidatorsCount 0 = 0) = true := by
    decide +kernel
  obtain ⟨system, returned, facts⟩ := returns_iff.mp checked
  obtain ⟨⟨started, trace⟩, accepted, facts⟩ := returns_iff.mp facts
  obtain ⟨registry, requested, facts⟩ := returns_iff.mp facts
  obtain ⟨before, raised, stopped⟩ := of_decide_eq_true facts
  have keeper : sample.External (.ofNat 12) := by decide
  refine ⟨system, started, trace, { started with registry := registry },
    sampleDemanded_reachable returned, accepted,
    .requestValidatorExits keeper requested, before, raised, stopped, ?_⟩
  intro quiet
  have followed := quiet.requested 0
  dsimp only at followed before
  omega

end Sample

end System

end RiverProtocol
