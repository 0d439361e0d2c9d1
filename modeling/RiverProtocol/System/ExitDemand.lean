import RiverProtocol.System.Exits

/-!
# The exit demand of a report

After the rebalancing, the exits already on their way and the demand for new
ones cover the redeem demand, or every deposited validator is requested.  The
last validator demanded is always needed.
-/

namespace RiverProtocol

open Checked Outcome

namespace River

variable {river after : River}

/-- What `_requestExitsBasedOnRedeemDemandAfterRebalancings` moves from the
deposit to the redeem balance. -/
def rebalancingAmount (river : River)
    (redeemManagerDemandInEth exitingBalance : Nat)
    (depositToRedeemRebalancingAllowed : Bool) : Nat :=
  if depositToRedeemRebalancingAllowed = true then
    min river.balanceToDeposit
      (redeemManagerDemandInEth - exitingBalance - river.balanceToRedeem)
  else 0

theorem rebalance_exact {demand exitingBalance : Nat} {allowed : Bool}
    (returned : river.rebalance demand exitingBalance allowed = .ok after) :
    after = river.rebalanced
      (river.rebalancingAmount demand exitingBalance allowed) := by
  unfold rebalance at returned
  unfold rebalancingAmount
  split at returned
  · rename_i permitted
    rw [if_pos permitted.1]
    simp only [bind_eq_ok, usub_eq_ok, LibUint256.min_eq] at returned
    obtain ⟨missing, ⟨-, rfl⟩, rest, ⟨-, rfl⟩, returned⟩ := returned
    split at returned
    · simp only [bind_eq_ok, uadd_eq_ok, usub_eq_ok, pure_eq_ok] at returned
      obtain ⟨toRedeem, ⟨-, rfl⟩, toDeposit, ⟨-, rfl⟩, rfl⟩ := returned
      rfl
    · rename_i nothing
      rw [pure_eq_ok] at returned
      rw [Nat.eq_zero_of_not_pos nothing]
      exact returned.symm
  · rename_i refused
    rw [pure_eq_ok] at returned
    split
    · rename_i permitted
      have empty : river.balanceToDeposit = 0 :=
        Nat.eq_zero_of_not_pos fun positive => refused ⟨permitted, positive⟩
      rw [empty, Nat.zero_min]
      exact returned.symm
    · exact returned.symm

end River

namespace OperatorsRegistry

variable {registry after : OperatorsRegistry}

/-- The registry with a higher exit demand. -/
def demanded (registry : OperatorsRegistry) (count : Nat) :
    OperatorsRegistry :=
  { registry with
    currentValidatorExitsDemand :=
      registry.currentValidatorExitsDemand + count }

theorem demandValidatorExits_exact {count deposited : Nat}
    (returned : registry.demandValidatorExits count deposited = .ok after) :
    registry.totalValidatorExitsRequested +
        registry.currentValidatorExitsDemand ≤ deposited ∧
      after = registry.demanded (min count (deposited -
        (registry.totalValidatorExitsRequested +
          registry.currentValidatorExitsDemand))) := by
  simp only [demandValidatorExits, bind_eq_ok, uadd_eq_ok, usub_eq_ok,
    LibUint256.min_eq] at returned
  obtain ⟨requested, ⟨-, rfl⟩, room, ⟨enough, rfl⟩, returned⟩ := returned
  refine ⟨enough, ?_⟩
  split at returned
  · simp only [bind_eq_ok, uadd_eq_ok, pure_eq_ok] at returned
    obtain ⟨demand, ⟨-, rfl⟩, rfl⟩ := returned
    rfl
  · rename_i nothing
    rw [pure_eq_ok] at returned
    rw [Nat.eq_zero_of_not_pos nothing]
    exact returned.symm

theorem reportStoppedValidatorCounts_demand_le {counts : List Nat}
    {deposited : Nat}
    (returned : registry.reportStoppedValidatorCounts counts deposited =
      .ok after) :
    after.currentValidatorExitsDemand ≤
      registry.currentValidatorExitsDemand := by
  cases counts with
  | nil => exact nomatch returned
  | cons total counts =>
      rw [(reportStoppedValidatorCounts_totals returned).2]
      exact Nat.sub_le _ _

theorem Reachable.of_report {counts : List Nat} {deposited : Nat}
    (reachable : registry.Reachable)
    (returned : registry.reportStoppedValidatorCounts counts deposited =
      .ok after) : after.Reachable := by
  obtain ⟨admin, run⟩ := reachable
  refine ⟨admin, run.tail
    ⟨.reportStoppedValidatorCounts counts deposited, 0, [], ?_⟩⟩
  simp only [Action.apply, returned]
  rfl

end OperatorsRegistry

namespace System

variable {deployment : Deployment} {system after : System}

/-- The redeem demand in ether is covered, with no more than one validator to
spare if the demand of exits rose since `registry`. -/
structure ExitsCover (demandInEth exitingBalance : Nat)
    (registry : OperatorsRegistry) (after : System) : Prop where
  stopped : after.registry.getTotalStoppedValidatorCount ≤
    after.registry.totalValidatorExitsRequested
  sufficient :
    demandInEth ≤ after.river.balanceToRedeem + exitingBalance +
        depositSize * (after.registry.totalValidatorExitsRequested +
          after.registry.currentValidatorExitsDemand -
          after.registry.getTotalStoppedValidatorCount) ∨
      after.registry.totalValidatorExitsRequested +
        after.registry.currentValidatorExitsDemand =
      after.river.depositedValidatorCount
  minimal :
    registry.currentValidatorExitsDemand <
      after.registry.currentValidatorExitsDemand →
    after.river.balanceToRedeem + exitingBalance +
      depositSize * (after.registry.totalValidatorExitsRequested +
        after.registry.currentValidatorExitsDemand - 1 -
        after.registry.getTotalStoppedValidatorCount) < demandInEth

theorem ExitsCover.of_covered (system : System)
    {demandInEth exitingBalance : Nat}
    (stopped : system.registry.getTotalStoppedValidatorCount ≤
      system.registry.totalValidatorExitsRequested)
    (covered : demandInEth ≤ system.river.balanceToRedeem + exitingBalance +
      depositSize * (system.registry.totalValidatorExitsRequested +
        system.registry.currentValidatorExitsDemand -
        system.registry.getTotalStoppedValidatorCount)) :
    ExitsCover demandInEth exitingBalance system.registry system :=
  ⟨stopped, .inl covered, fun raised => absurd raised (Nat.lt_irrefl _)⟩

/-- As many exits are demanded as the missing ether needs, or as there are
validators left. -/
theorem ExitsCover.of_demanded (system : System)
    {demandInEth exitingBalance count : Nat} {registry : OperatorsRegistry}
    (stopped : system.registry.getTotalStoppedValidatorCount ≤
      system.registry.totalValidatorExitsRequested)
    (needed : demandInEth ≤ system.river.balanceToRedeem + exitingBalance +
        depositSize * (system.registry.totalValidatorExitsRequested +
          system.registry.currentValidatorExitsDemand -
          system.registry.getTotalStoppedValidatorCount) +
        depositSize * count)
    (least : count ≠ 0 → system.river.balanceToRedeem + exitingBalance +
        depositSize * (system.registry.totalValidatorExitsRequested +
          system.registry.currentValidatorExitsDemand -
          system.registry.getTotalStoppedValidatorCount) +
        depositSize * (count - 1) < demandInEth)
    (demanding : system.registry.demandValidatorExits count
      system.river.depositedValidatorCount = .ok registry) :
    ExitsCover demandInEth exitingBalance system.registry
      { system with registry := registry } := by
  obtain ⟨room, rfl⟩ :=
    OperatorsRegistry.demandValidatorExits_exact demanding
  generalize granted_eq : min count (system.river.depositedValidatorCount -
    (system.registry.totalValidatorExitsRequested +
      system.registry.currentValidatorExitsDemand)) = granted
  have total : system.registry.totalValidatorExitsRequested +
      (system.registry.currentValidatorExitsDemand + granted) -
      system.registry.getTotalStoppedValidatorCount =
      (system.registry.totalValidatorExitsRequested +
        system.registry.currentValidatorExitsDemand -
        system.registry.getTotalStoppedValidatorCount) + granted := by
    omega
  refine ⟨stopped, ?_, ?_⟩
  · rcases Nat.le_total count (system.river.depositedValidatorCount -
      (system.registry.totalValidatorExitsRequested +
        system.registry.currentValidatorExitsDemand)) with enough | short
    · left
      rw [Nat.min_eq_left enough] at granted_eq
      simp only [OperatorsRegistry.demanded,
        OperatorsRegistry.getTotalStoppedValidatorCount] at total ⊢
      rw [total, ← granted_eq, Nat.mul_add, ← Nat.add_assoc]
      exact needed
    · right
      rw [Nat.min_eq_right short] at granted_eq
      simp only [OperatorsRegistry.demanded]
      omega
  · intro raised
    simp only [OperatorsRegistry.demanded] at raised
    have positive : count ≠ 0 := by omega
    have fewer : granted - 1 ≤ count - 1 := by omega
    have lowered : system.registry.totalValidatorExitsRequested +
        (system.registry.currentValidatorExitsDemand + granted) - 1 -
        system.registry.getTotalStoppedValidatorCount =
        (system.registry.totalValidatorExitsRequested +
          system.registry.currentValidatorExitsDemand -
          system.registry.getTotalStoppedValidatorCount) + (granted - 1) := by
      omega
    have cost := Nat.mul_le_mul_left depositSize fewer
    simp only [OperatorsRegistry.demanded,
      OperatorsRegistry.getTotalStoppedValidatorCount] at lowered least ⊢
    rw [lowered, Nat.mul_add]
    have bound := least positive
    omega

theorem requestExits_exact (system : System) {exitingBalance : Nat}
    {allowed : Bool}
    (supplied : 0 < system.river.shares)
    (stopped : system.registry.getTotalStoppedValidatorCount ≤
      system.registry.totalValidatorExitsRequested)
    (returned : system.requestExits exitingBalance allowed = .ok after) :
    ∃ demandInEth,
      system.river.balanceFromShares system.redeemManager.redeemDemand =
        .ok demandInEth ∧
      after.river = system.river.rebalanced
        (system.river.rebalancingAmount demandInEth exitingBalance allowed) ∧
      ExitsCover demandInEth exitingBalance system.registry after := by
  rw [requestExits, if_pos supplied] at returned
  simp only [bind_eq_ok, uadd_eq_ok] at returned
  obtain ⟨demandInEth, valued, covered, ⟨-, rfl⟩, returned⟩ := returned
  refine ⟨demandInEth, valued, ?_⟩
  split at returned
  · rename_i short
    simp only [bind_eq_ok, umul_eq_ok, uadd_eq_ok, Prod.exists,
      OperatorsRegistry.getStoppedAndRequestedExitCounts, pure_eq_ok,
      Prod.mk.injEq] at returned
    obtain ⟨river, rebalancing, stoppedCount, exits, ⟨_, ⟨-, rfl⟩, rfl, rfl⟩,
      preExiting, difference, _, ⟨-, rfl⟩, _, ⟨-, rfl⟩, _, ⟨-, rfl⟩,
      returned⟩ := returned
    obtain rfl := River.rebalance_exact rebalancing
    have pending : preExiting =
        system.registry.totalValidatorExitsRequested +
          system.registry.currentValidatorExitsDemand -
          system.registry.getTotalStoppedValidatorCount := by
      split at difference
      · exact (usub_eq_ok.mp difference).2.symm
      · rw [pure_eq_ok] at difference
        omega
    subst pending
    let rebalanced : System := { system with
      river := system.river.rebalanced
        (system.river.rebalancingAmount demandInEth exitingBalance allowed) }
    split at returned
    · simp only [bind_eq_ok, usub_eq_ok, pure_eq_ok] at returned
      obtain ⟨_, ⟨-, rfl⟩, count, rounding, registry, demanding, rfl⟩ :=
        returned
      obtain ⟨covers, least⟩ := LibUint256.ceil_ok rounding
      refine ⟨rfl, .of_demanded rebalanced stopped ?_ ?_ demanding⟩
      · rw [Nat.mul_comm _ depositSize] at covers
        dsimp only [rebalanced]
        omega
      · intro positive
        have below := least positive
        rw [Nat.mul_comm _ depositSize] at below
        dsimp only [rebalanced]
        omega
    · rename_i enough
      rw [pure_eq_ok] at returned
      subst returned
      refine ⟨rfl, .of_covered rebalanced stopped ?_⟩
      rw [Nat.mul_comm depositSize]
      exact Nat.le_of_not_lt enough
  · rename_i enough
    rw [pure_eq_ok] at returned
    subst returned
    have nothing : system.river.rebalancingAmount demandInEth exitingBalance
        allowed = 0 := by
      unfold River.rebalancingAmount
      split <;> omega
    rw [nothing]
    refine ⟨rfl, .of_covered system stopped ?_⟩
    exact (Nat.le_of_not_lt enough).trans (Nat.le_add_right _ _)

section Report

variable {funds : ExternalFunds} {timestamp : Nat} {sender : Address}
  {report : ConsensusLayerReport} {increase : River.ReportIncrease}
  {trace : ReportingTrace} {before prepared : System}

/-- The part of `prepareReport` before exits are requested. -/
def rewardReport (system : System) (funds : ExternalFunds) (timestamp : Nat)
    (sender : Address) (report : ConsensusLayerReport) :
    Except Error (System × River.ReportIncrease × ReportingTrace) := do
  let increase ← system.river.checkReport sender timestamp report
  let preReportUnderlyingBalance ← system.river.assetBalance
  let applied ← system.applyReport increase report
  let postReportUnderlyingBalance ← applied.river.assetBalance
  let (rewards, available) ← River.checkBounds
    applied.river.config.reportBounds increase.timeElapsedSinceLastReport
    preReportUnderlyingBalance postReportUnderlyingBalance
  let (pulled, trace) ← applied.pullWithin funds rewards available
  let river ← (
    if trace.rewards > 0 then pulled.river.onEarnings trace.rewards
    else pure pulled.river)
  return ({ pulled with river := river }, increase, trace)

theorem prepareReport_rewarded
    (returned : system.prepareReport funds timestamp sender report =
      .ok (prepared, increase, trace)) :
    ∃ before, system.rewardReport funds timestamp sender report =
        .ok (before, increase, trace) ∧
      before.requestExitsBasedOnRedeemDemandAfterRebalancings
        report.validatorsExitingBalance report.stoppedValidatorCountPerOperator
        report.rebalanceDepositToRedeemMode report.slashingContainmentMode =
        .ok prepared := by
  simp only [prepareReport, bind_eq_ok, pure_eq_ok, Prod.mk.injEq,
    Prod.exists] at returned
  obtain ⟨increase, checking, pre, preValued, applied, applying, post,
    postValued, rewards, available, bounding, pulled, answer, pulling,
    rewardedRiver, earning, requested, requesting, rfl, rfl, rfl⟩ := returned
  refine ⟨_, ?_, requesting⟩
  simp only [rewardReport, bind_eq_ok, pure_eq_ok, Prod.exists]
  exact ⟨_, checking, _, preValued, _, applying, _, postValued, _, _, bounding,
    _, _, pulling, _, earning, rfl⟩

theorem rewardReport_ok
    (returned : system.rewardReport funds timestamp sender report =
      .ok (before, increase, trace)) :
    before.registry = system.registry ∧
      before.river.depositedValidatorCount =
        system.river.depositedValidatorCount ∧
      system.river.shares ≤ before.river.shares := by
  simp only [rewardReport, bind_eq_ok, pure_eq_ok, Prod.mk.injEq,
    Prod.exists] at returned
  obtain ⟨increase, -, pre, -, applied, applying, post, -, rewards,
    available, -, pulled, answer, pulling, rewardedRiver, earning, rfl, -,
    -⟩ := returned
  have applied_eq := (applyReport_ok applying).2
  obtain ⟨redeemManager, -, pulled_eq⟩ := pullWithin_ok pulling
  have river_eq := (River.earned_ok earning).2
  refine ⟨?_, ?_, ?_⟩
  · rw [pulled_eq, applied_eq]
    rfl
  · rw [river_eq, pulled_eq, applied_eq]
    rfl
  · rw [river_eq, River.minted_shares, pulled_eq, applied_eq]
    exact Nat.le_add_right _ _

/-- The exit stage of an accepted report demands what the redeem demand lacks,
and no validator more. -/
theorem exit_demand_exact (reachable : Reachable deployment system)
    (supplied : 0 < system.river.shares)
    (uncontained : report.slashingContainmentMode = false)
    (returned : system.setConsensusLayerData deployment funds timestamp
      sender report = .ok (after, trace)) :
    ∃ (increase : River.ReportIncrease) (before prepared : System)
      (reported : OperatorsRegistry) (demandInEth : Nat),
      system.rewardReport funds timestamp sender report =
        .ok (before, increase, trace) ∧
      before.requestExitsBasedOnRedeemDemandAfterRebalancings
        report.validatorsExitingBalance report.stoppedValidatorCountPerOperator
        report.rebalanceDepositToRedeemMode report.slashingContainmentMode =
        .ok prepared ∧
      prepared.finishReport deployment increase.timeElapsedSinceLastReport
        report.slashingContainmentMode = .ok after ∧
      before.registry.reportStoppedValidatorCounts
        report.stoppedValidatorCountPerOperator
        before.river.depositedValidatorCount = .ok reported ∧
      before.river.balanceFromShares before.redeemManager.redeemDemand =
        .ok demandInEth ∧
      prepared.river = before.river.rebalanced
        (if report.rebalanceDepositToRedeemMode = true then
          min before.river.balanceToDeposit (demandInEth -
            report.validatorsExitingBalance - before.river.balanceToRedeem)
        else 0) ∧
      prepared.registry.getTotalStoppedValidatorCount ≤
        prepared.registry.totalValidatorExitsRequested ∧
      (demandInEth ≤ prepared.river.balanceToRedeem +
            report.validatorsExitingBalance +
            depositSize * (prepared.registry.totalValidatorExitsRequested +
              prepared.registry.currentValidatorExitsDemand -
              prepared.registry.getTotalStoppedValidatorCount) ∨
        prepared.registry.totalValidatorExitsRequested +
            prepared.registry.currentValidatorExitsDemand =
          prepared.river.depositedValidatorCount) ∧
      reported.currentValidatorExitsDemand ≤
        before.registry.currentValidatorExitsDemand ∧
      (reported.currentValidatorExitsDemand <
          prepared.registry.currentValidatorExitsDemand →
        prepared.river.balanceToRedeem + report.validatorsExitingBalance +
          depositSize * (prepared.registry.totalValidatorExitsRequested +
            prepared.registry.currentValidatorExitsDemand - 1 -
            prepared.registry.getTotalStoppedValidatorCount) <
        demandInEth) := by
  have sound := Sound.of_reachable reachable
  obtain ⟨prepared, increase, preparing, finishing⟩ :=
    setConsensusLayerData_ok returned
  obtain ⟨before, rewarding, requesting⟩ := prepareReport_rewarded preparing
  obtain ⟨registry, deposited, kept⟩ := rewardReport_ok rewarding
  have exiting := requesting
  simp only [requestExitsBasedOnRedeemDemandAfterRebalancings, uncontained,
    Bool.false_eq_true, if_false, bind_eq_ok] at exiting
  obtain ⟨reported, reporting, exiting⟩ := exiting
  have accountedBefore : before.registry.Accounted
      before.river.depositedValidatorCount := by
    rw [registry, deposited]
    exact sound.registry
  have accounted := OperatorsRegistry.reportStoppedValidatorCounts_ok
    accountedBefore reporting
  have tiered : reported.Tiered := by
    rw [registry] at reporting
    exact ((registry_reachable reachable).of_report reporting).tiered
  have stopped : reported.getTotalStoppedValidatorCount ≤
      reported.totalValidatorExitsRequested := by
    rw [accounted.requested_total]
    exact tiered.stopped_le_requested
  obtain ⟨demandInEth, valued, moved, cover⟩ := requestExits_exact
    { before with registry := reported } (supplied.trans_le kept) stopped
    exiting
  exact ⟨increase, before, prepared, reported, demandInEth, rewarding,
    requesting, finishing, reporting, valued, moved, cover.stopped,
    cover.sufficient,
    OperatorsRegistry.reportStoppedValidatorCounts_demand_le reporting,
    cover.minimal⟩

end Report

/-- The first report after the sample request demands one exit. -/
theorem exit_demand_exact_sample :
    ∃ (system before prepared : System) (demandInEth : Nat),
      sampleFunded = .ok system ∧
      before.requestExitsBasedOnRedeemDemandAfterRebalancings 0 [0] false
        false = .ok prepared ∧
      prepared.registry.totalValidatorExitsRequested +
        prepared.registry.currentValidatorExitsDemand = 1 ∧
      prepared.river.balanceToRedeem + depositSize *
        (0 - prepared.registry.getTotalStoppedValidatorCount) <
        demandInEth := by
  have checked : returns sampleFunded (fun system =>
      0 < system.river.shares &&
      returns (system.rewardReport (feesUpTo 0) 1000000 (.ofNat 11)
        (validatorReport 450 false)) (fun rewarded =>
          rewarded.1.registry.currentValidatorExitsDemand = 0 &&
          returns (rewarded.1.requestExitsBasedOnRedeemDemandAfterRebalancings
            0 [0] false false) fun prepared =>
              prepared.registry.totalValidatorExitsRequested = 0 &&
                prepared.registry.currentValidatorExitsDemand = 1) &&
      returns (system.setConsensusLayerData sample (feesUpTo 0) 1000000
        (.ofNat 11) (validatorReport 450 false)) fun _ => true) = true := by
    decide +kernel
  obtain ⟨system, returned, facts⟩ := returns_iff.mp checked
  simp only [Bool.and_eq_true, decide_eq_true_eq] at facts
  obtain ⟨⟨supplied, rewards⟩, reported⟩ := facts
  obtain ⟨⟨found, _, _⟩, rewarding, demands⟩ := returns_iff.mp rewards
  simp only [Bool.and_eq_true, decide_eq_true_eq] at demands
  obtain ⟨undemanded, exits⟩ := demands
  obtain ⟨raised, requesting, totals⟩ := returns_iff.mp exits
  simp only [Bool.and_eq_true, decide_eq_true_eq] at totals
  obtain ⟨⟨after, trace⟩, reporting, -⟩ := returns_iff.mp reported
  obtain ⟨increase, before, prepared, stopped, demandInEth, same, exiting, -,
    -, -, -, -, -, lowered, minimal⟩ := exit_demand_exact
      (sampleFunded_reachable returned) supplied rfl reporting
  obtain ⟨rfl, -⟩ := Prod.mk.inj (Except.ok.inj (rewarding.symm.trans same))
  obtain rfl : raised = prepared :=
    Except.ok.inj (requesting.symm.trans exiting)
  have needed := minimal (by omega)
  rw [totals.1, totals.2] at needed
  exact ⟨system, found, raised, demandInEth, returned, requesting,
    by omega, needed⟩

end System

end RiverProtocol
