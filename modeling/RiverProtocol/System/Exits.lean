import RiverProtocol.OperatorsRegistry.Counters
import RiverProtocol.System.Books

/-!
# Exit accounting across River and the registry

The registry of a system runs by its own actions, and the counters of its
operators add up to the totals that River and the registry keep.
-/

namespace RiverProtocol

open Checked Outcome

namespace OperatorsRegistry

theorem sum_le_requestedSum {operators : List Operator} {counts : List Nat}
    (length : counts.length ≤ operators.length)
    (each : ∀ (index : Nat) (operator : Operator),
      operators[index]? = some operator →
      (counts[index]?).getD 0 ≤ operator.requestedExits) :
    counts.sum ≤ requestedSum operators := by
  induction operators generalizing counts with
  | nil =>
      obtain rfl := List.eq_nil_of_length_eq_zero (Nat.le_zero.mp length)
      exact Nat.le_refl _
  | cons operator operators induction =>
      cases counts with
      | nil => exact Nat.zero_le _
      | cons count counts =>
          rw [List.sum_cons, requestedSum, List.map_cons, List.sum_cons]
          apply Nat.add_le_add
          · exact each 0 operator rfl
          · apply induction (Nat.le_of_succ_le_succ length)
            intro index other found
            exact each (index + 1) other found

/-- The stopped validators were all requested to exit. -/
theorem Tiered.stopped_le_requested {registry : OperatorsRegistry}
    (tiered : registry.Tiered) :
    registry.getTotalStoppedValidatorCount ≤
      requestedSum registry.operators := by
  cases stored : registry.stoppedValidators with
  | nil =>
      rw [getTotalStoppedValidatorCount, stored]
      exact Nat.zero_le _
  | cons total counts =>
      have length := tiered.stopped_length
      rw [stored] at length
      rw [getTotalStoppedValidatorCount, stored]
      change total ≤ _
      rw [tiered.stopped_sum total counts stored]
      apply sum_le_requestedSum (Nat.le_of_succ_le_succ length)
      intro index operator found
      have stopped := (tiered.of_found found).stopped_le
      rw [getStoppedValidatorsCount, stored] at stopped
      exact stopped

theorem Accounted.demand_ne_underflow {registry : OperatorsRegistry}
    {deposited : Nat} (accounted : Accounted registry deposited)
    (count : Nat) : registry.demandValidatorExits count deposited ≠
      .error (.panic .underflow) := by
  rcases completes_iff.mp (completes_demandValidatorExits accounted) with
    ⟨after, returned⟩ | failed
  · rw [returned]
    exact nofun
  · rw [failed]
    exact nofun

theorem demandValidatorExits_totals {registry after : OperatorsRegistry}
    {count deposited : Nat}
    (returned : registry.demandValidatorExits count deposited = .ok after) :
    after.totalValidatorExitsRequested =
        registry.totalValidatorExitsRequested ∧
      registry.currentValidatorExitsDemand ≤
        after.currentValidatorExitsDemand := by
  simp only [demandValidatorExits, bind_eq_ok] at returned
  obtain ⟨requested, -, room, -, returned⟩ := returned
  split at returned
  · simp only [bind_eq_ok, uadd_eq_ok, pure_eq_ok] at returned
    obtain ⟨demand, ⟨-, rfl⟩, rfl⟩ := returned
    exact ⟨rfl, Nat.le_add_right _ _⟩
  · simp only [pure_eq_ok] at returned
    subst returned
    exact ⟨rfl, Nat.le_refl _⟩

end OperatorsRegistry

namespace System

variable {deployment : Deployment} {system after : System}

theorem Move.registry (move : Move deployment system after) :
    Relation.ReflTransGen OperatorsRegistry.Step system.registry
      after.registry := by
  cases move with
  | fund picked =>
      exact .single ⟨.pickNextValidatorsToDeposit _, 0, _, picked⟩
  | @exits registry keeper sender allocations returned =>
      refine .single ⟨.requestValidatorExits keeper sender allocations, 0, [],
        ?_⟩
      simp only [OperatorsRegistry.Action.apply, returned]
      rfl
  | @manage registry call sender blockNumber returned =>
      refine .single ⟨.manage sender call, blockNumber, [], ?_⟩
      simp only [OperatorsRegistry.Action.apply, returned]
      rfl
  | _ => exact .refl

/-- What the exit stage of a report does to a registry, with River's count of
validators. -/
structure ExitStage (registry : OperatorsRegistry) (deposited : Nat)
    (counts : List Nat) (contained : Bool) (after : OperatorsRegistry) :
    Prop where
  exists_reported : ∃ reported,
    registry.reportStoppedValidatorCounts counts deposited = .ok reported ∧
    (after = reported ∨ (contained = false ∧ ∃ count,
      reported.demandValidatorExits count deposited = .ok after))

theorem requestExitsBasedOnRedeemDemandAfterRebalancings_registry
    {exitingBalance : Nat} {counts : List Nat} {allowed contained : Bool}
    (returned : system.requestExitsBasedOnRedeemDemandAfterRebalancings
      exitingBalance counts allowed contained = .ok after) :
    ExitStage system.registry system.river.depositedValidatorCount counts
      contained after.registry := by
  simp only [requestExitsBasedOnRedeemDemandAfterRebalancings, bind_eq_ok]
    at returned
  obtain ⟨reported, reporting, requesting⟩ := returned
  refine ⟨reported, reporting, ?_⟩
  split at requesting
  · rw [pure_eq_ok] at requesting
    exact .inl (congrArg (·.registry) requesting.symm)
  · rename_i uncontained
    obtain ⟨registry, rebalancing, demanded, -, rfl⟩ :=
      requestExits_ok requesting
    cases demanded with
    | inl same => exact .inl same
    | inr demanding => exact .inr ⟨by simpa using uncontained, demanding⟩

section Report

variable {funds : ExternalFunds} {timestamp : Nat} {sender : Address}
  {report : ConsensusLayerReport} {trace : ReportingTrace}

theorem finishReport_registry {timeElapsed : Nat} {contained : Bool}
    (returned : system.finishReport deployment timeElapsed contained =
      .ok after) : after.registry = system.registry := by
  obtain ⟨withdrawn, deposits, withdrawing, -, rfl⟩ :=
    finishReport_ok returned
  rcases reportWithdrawToRedeemManager_ok withdrawing with
    ⟨rfl, -⟩ | ⟨amount, eth, withdrawal⟩
  · rfl
  · exact congrArg (·.registry) withdrawal.after_eq

/-- A report touches the registry in its exit stage only. -/
theorem report_exitStage
    (returned : system.setConsensusLayerData deployment funds timestamp
      sender report = .ok (after, trace)) :
    ExitStage system.registry system.river.depositedValidatorCount
      report.stoppedValidatorCountPerOperator report.slashingContainmentMode
      after.registry := by
  obtain ⟨prepared, increase, preparing, finishing⟩ :=
    setConsensusLayerData_ok returned
  rw [finishReport_registry finishing]
  simp only [prepareReport, bind_eq_ok, pure_eq_ok, Prod.mk.injEq,
    Prod.exists] at preparing
  obtain ⟨increase, -, before, -, applied, applying, post, -, rewards,
    available, -, pulled, answer, pulling, rewardedRiver, earning, requested,
    requesting, rfl, -, -⟩ := preparing
  have applied_eq := (applyReport_ok applying).2
  obtain ⟨redeemManager, -, pulled_eq⟩ := pullWithin_ok pulling
  have river_eq := (River.earned_ok earning).2
  have registry : pulled.registry = system.registry := by
    rw [pulled_eq, applied_eq]
    rfl
  have deposited : rewardedRiver.depositedValidatorCount =
      system.river.depositedValidatorCount := by
    rw [river_eq, pulled_eq, applied_eq]
    rfl
  have stage :=
    requestExitsBasedOnRedeemDemandAfterRebalancings_registry requesting
  dsimp only at stage
  rw [registry, deposited] at stage
  exact stage

theorem ExitStage.steps {counts : List Nat} {contained : Bool}
    {registry : OperatorsRegistry}
    {deposited : Nat} {later : OperatorsRegistry}
    (stage : ExitStage registry deposited counts contained later) :
    Relation.ReflTransGen OperatorsRegistry.Step registry later := by
  obtain ⟨reported, reporting, demanded⟩ := stage
  have first : OperatorsRegistry.Step registry reported := by
    refine ⟨.reportStoppedValidatorCounts counts deposited, 0, [], ?_⟩
    simp only [OperatorsRegistry.Action.apply, reporting]
    rfl
  rcases demanded with rfl | ⟨-, count, demanding⟩
  · exact .single first
  · refine (Relation.ReflTransGen.single first).tail
      ⟨.demandValidatorExits count deposited, 0, [], ?_⟩
    simp only [OperatorsRegistry.Action.apply, demanding]
    rfl

end Report

theorem Step.registry (sound : Sound deployment system)
    (step : Step deployment system after) :
    Relation.ReflTransGen OperatorsRegistry.Step system.registry
      after.registry := by
  cases step with
  | operation operation =>
      have moves := operation.moves sound.river.no_approval
      clear operation
      induction moves with
      | refl => exact .refl
      | tail _ move induction => exact induction.trans move.registry
  | report returned => exact (report_exitStage returned).steps

theorem registry_reachable (reachable : Reachable deployment system) :
    system.registry.Reachable := by
  refine ⟨deployment.registryAdmin, ?_⟩
  induction reachable with
  | refl => exact .refl
  | tail run step induction =>
      exact induction.trans (step.registry (Sound.of_reachable run))

/-- The counters of the operators, the totals of the registry and River's
count of validators agree in every reachable state, and a report of stopped
counts keeps them so. -/
theorem exits_accounted (reachable : Reachable deployment system) :
    system.registry.totalValidatorExitsRequested =
      requestedSum system.registry.operators ∧
    fundedSum system.registry.operators =
      system.river.depositedValidatorCount ∧
    system.registry.totalValidatorExitsRequested +
        system.registry.currentValidatorExitsDemand ≤
      system.river.depositedValidatorCount ∧
    system.registry.getTotalStoppedValidatorCount ≤
      system.registry.totalValidatorExitsRequested ∧
    (∀ count, system.registry.demandValidatorExits count
      system.river.depositedValidatorCount ≠ .error (.panic .underflow)) ∧
    (∀ (total : Nat) (counts : List Nat) (reported : OperatorsRegistry),
      system.registry.reportStoppedValidatorCounts (total :: counts)
        system.river.depositedValidatorCount = .ok reported →
      reported.totalValidatorExitsRequested =
        system.registry.totalValidatorExitsRequested +
          OperatorsRegistry.unsolicited system.registry.operators counts ∧
      reported.currentValidatorExitsDemand =
        system.registry.currentValidatorExitsDemand -
          min (OperatorsRegistry.unsolicited system.registry.operators counts)
            system.registry.currentValidatorExitsDemand ∧
      ∀ count, reported.demandValidatorExits count
        system.river.depositedValidatorCount ≠
          .error (.panic .underflow)) ∧
    ∀ (funds : ExternalFunds) (timestamp : Nat) (sender : Address)
      (report : ConsensusLayerReport) (after : System)
      (trace : ReportingTrace),
      system.setConsensusLayerData deployment funds timestamp sender report =
        .ok (after, trace) →
      ∃ total counts,
        report.stoppedValidatorCountPerOperator = total :: counts ∧
        after.registry.totalValidatorExitsRequested =
          system.registry.totalValidatorExitsRequested +
            OperatorsRegistry.unsolicited system.registry.operators counts ∧
        system.registry.currentValidatorExitsDemand ≤
          after.registry.currentValidatorExitsDemand +
            OperatorsRegistry.unsolicited system.registry.operators
              counts := by
  have accounted := (Sound.of_reachable reachable).registry
  have tiered := (registry_reachable reachable).tiered
  refine ⟨accounted.requested_total, accounted.funded_total,
    accounted.demand, ?_, accounted.demand_ne_underflow, ?_, ?_⟩
  · rw [accounted.requested_total]
    exact tiered.stopped_le_requested
  · intro total counts reported reporting
    obtain ⟨requested, demand⟩ :=
      OperatorsRegistry.reportStoppedValidatorCounts_totals reporting
    exact ⟨requested, demand,
      (OperatorsRegistry.reportStoppedValidatorCounts_ok accounted
        reporting).demand_ne_underflow⟩
  · intro funds timestamp sender report after trace returned
    obtain ⟨reported, reporting, demanded⟩ := report_exitStage returned
    cases stopped : report.stoppedValidatorCountPerOperator with
    | nil =>
        rw [stopped] at reporting
        cases reporting
    | cons total counts =>
        rw [stopped] at reporting
        obtain ⟨requested, demand⟩ :=
          OperatorsRegistry.reportStoppedValidatorCounts_totals reporting
        refine ⟨total, counts, rfl, ?_⟩
        rcases demanded with same | ⟨-, count, demanding⟩
        · rw [same]
          exact ⟨requested, by omega⟩
        · obtain ⟨total, raised⟩ :=
            OperatorsRegistry.demandValidatorExits_totals demanding
          exact ⟨total.trans requested, by omega⟩

section Sample

open RedeemManager (alice)

/-- One operator with one key, and a deposit for one validator. -/
def sampleOperated : Except Error System := do
  let start := fresh sample
  let registry ← (OperatorsRegistry.Call.addOperator "operator"
    (.ofNat 20)).apply start.registry sample.registryAdmin 1
  let registry ← (OperatorsRegistry.Call.addValidators 0 1
    (OperatorsRegistry.sampleEntries.take ValidatorKeys.entryLength)).apply
    registry sample.registryAdmin 2
  let registry ← (OperatorsRegistry.Call.setOperatorLimits [0] [1] 2).apply
    registry sample.registryAdmin 3
  let river ← (River.Call.deposit depositSize).apply start.river
    start.allowlist alice
  return { start with registry := registry, river := river }

def acceptingContract : DepositContract :=
  { depositRoot := 0
    accepts := fun _ _ => true }

/-- A report of one validator. -/
def validatorReport (epoch : Nat) (contained : Bool) : ConsensusLayerReport :=
  { quietReport epoch false with
    validatorsBalance := depositSize
    validatorsCount := 1
    slashingContainmentMode := contained }

/-- The validator is deposited and 10 LsETH are asked back. -/
def sampleFunded : Except Error System := do
  let operated ← sampleOperated
  let (committed, _) ← operated.setConsensusLayerData sample (feesUpTo 0)
    1000000 (.ofNat 11) (quietReport 225 false)
  let funded ← committed.depositToConsensusLayer sample acceptingContract
    (.ofNat 12) [⟨0, 1⟩] 0
  let (requested, _) ← funded.requestRedeem sample alice (10 * ether) alice
  return requested

/-- A report demands the exit of the validator. -/
def sampleDemanded : Except Error System := do
  let funded ← sampleFunded
  let (demanded, _) ← funded.setConsensusLayerData sample (feesUpTo 0)
    1000000 (.ofNat 11) (validatorReport 450 false)
  return demanded

theorem sampleOperated_run {system : System}
    (returned : sampleOperated = .ok system) :
    Relation.ReflTransGen (Operation sample) (fresh sample) system := by
  simp only [sampleOperated, bind_eq_ok, pure_eq_ok] at returned
  obtain ⟨added, adding, keyed, keying, limited, limiting, river, depositing,
    rfl⟩ := returned
  have admin : sample.External sample.registryAdmin := by decide
  have external : sample.External alice := by decide
  refine .tail (.tail (.tail (.single (.registry admin adding))
    (.registry admin keying)) (.registry admin limiting)) ?_
  exact .river external depositing

theorem sampleFunded_reachable {system : System}
    (returned : sampleFunded = .ok system) : Reachable sample system := by
  simp only [sampleFunded, bind_eq_ok, pure_eq_ok, Prod.exists] at returned
  obtain ⟨operated, operating, committed, trace, reporting, funded, funding,
    asked, id, requesting, rfl⟩ := returned
  have start : Reachable sample operated :=
    Relation.ReflTransGen.mono (fun _ _ => .operation) _ _
      (sampleOperated_run operating)
  have keeper : sample.External (.ofNat 12) := by decide
  have external : sample.External alice := by decide
  exact ((start.tail (.report reporting)).tail
    (.operation (.depositToConsensusLayer keeper funding))).tail
    (.operation (.requestRedeem external requesting))

theorem sampleDemanded_reachable {system : System}
    (returned : sampleDemanded = .ok system) : Reachable sample system := by
  simp only [sampleDemanded, bind_eq_ok, pure_eq_ok, Prod.exists] at returned
  obtain ⟨funded, funding, demanded, trace, reporting, rfl⟩ := returned
  exact (sampleFunded_reachable funding).tail (.report reporting)

theorem exits_accounted_sample : ∃ system, sampleDemanded = .ok system ∧
    system.registry.currentValidatorExitsDemand = 1 ∧
    system.registry.totalValidatorExitsRequested + 1 ≤
      system.river.depositedValidatorCount := by
  have checked : returns sampleDemanded (fun system =>
      system.registry.currentValidatorExitsDemand = 1) = true := by
    decide +kernel
  obtain ⟨system, returned, facts⟩ := returns_iff.mp checked
  have demand := of_decide_eq_true facts
  obtain ⟨-, -, within, -⟩ :=
    exits_accounted (sampleDemanded_reachable returned)
  exact ⟨system, returned, demand, demand ▸ within⟩

end Sample

end System

end RiverProtocol
