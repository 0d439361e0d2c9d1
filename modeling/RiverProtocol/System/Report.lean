import RiverProtocol.System.Moves

/-!
# What an accepted report does

`ReportRun` lists the stages of `setConsensusLayerData`: the values of the
report are applied, ether is pulled, a fee is minted, exits are requested,
the redeem demand is served, and what is left is skimmed and committed.
-/

namespace RiverProtocol

open Checked Outcome

/-- All ether a report collects beyond the funds of the consensus layer. -/
def ReportingTrace.collected (trace : ReportingTrace) : Nat :=
  trace.pulledELFees + trace.pulledRedeemManagerExceedingEthBuffer +
    trace.pulledCoverageFunds

namespace System

variable {deployment : Deployment} {system after : System}

/-- The values of a report applied, with the ether of the withdraw contract
pulled. -/
def applied (system : System) (increase : River.ReportIncrease)
    (report : ConsensusLayerReport) : System :=
  { system with
    withdraw :=
      { balance := system.withdraw.balance -
          (increase.skimmedAmountIncrease + increase.exitedAmountIncrease)
        pulled := system.withdraw.pulled +
          (increase.skimmedAmountIncrease + increase.exitedAmountIncrease) }
    river := system.river.reported increase.skimmedAmountIncrease
      increase.exitedAmountIncrease report.toStoredConsensusLayerReport }

/-- Ether collected while the redeem manager gives some of its buffer. -/
def collected (system : System) (redeemManager : RedeemManager)
    (amount : Nat) : System :=
  { system with
    redeemManager := redeemManager
    river := system.river.received amount }

/-- The fee on the rewards minted. -/
def rewarded (system : System) (rewards : Nat) : System :=
  { system with
    river := system.river.minted system.river.config.collector
      (system.river.feeShares rewards) }

/-- Exits reported and requested, after a rebalancing. -/
def requested (system : System) (registry : OperatorsRegistry)
    (rebalancing : Nat) : System :=
  { system with
    registry := registry
    river := system.river.rebalanced rebalancing }

/-- What is left of the redeem balance skimmed, and deposits committed. -/
def settled (system : System) (count : Nat) : System :=
  { system with river := system.river.skimmed.committed count }

theorem pullCLFunds_ok {skimmed exited : Nat}
    (returned : system.pullCLFunds skimmed exited = .ok after) :
    skimmed + exited ≤ system.withdraw.balance ∧
      after = { system with
        withdraw :=
          { balance := system.withdraw.balance - (skimmed + exited)
            pulled := system.withdraw.pulled + (skimmed + exited) }
        river := system.river.reported skimmed exited
          system.river.lastConsensusLayerReport } := by
  simp only [pullCLFunds, bind_eq_ok, uadd_eq_ok, usub_eq_ok, require_eq_ok,
    pure_eq_ok, LibUint256.min_eq] at returned
  obtain ⟨total, ⟨-, rfl⟩, balance, ⟨-, rfl⟩, got, ⟨-, rfl⟩, -, whole,
    toDeposit, deposited, toRedeem, redeemed, rfl⟩ := returned
  rw [Nat.add_sub_cancel_left] at whole
  have toDepositEq : system.river.balanceToDeposit + skimmed = toDeposit := by
    split at deposited
    · exact (uadd_eq_ok.mp deposited).2
    · rw [pure_eq_ok] at deposited
      omega
  have toRedeemEq : system.river.balanceToRedeem + exited = toRedeem := by
    split at redeemed
    · exact (uadd_eq_ok.mp redeemed).2
    · rw [pure_eq_ok] at redeemed
      omega
  refine ⟨by omega, ?_⟩
  rw [whole, ← toDepositEq, ← toRedeemEq]
  rfl

theorem applyReport_ok {increase : River.ReportIncrease}
    {report : ConsensusLayerReport}
    (returned : system.applyReport increase report = .ok after) :
    increase.skimmedAmountIncrease + increase.exitedAmountIncrease ≤
        system.withdraw.balance ∧
      after = system.applied increase report := by
  simp only [applyReport, bind_eq_ok, uadd_eq_ok, pure_eq_ok] at returned
  obtain ⟨total, ⟨-, rfl⟩, pulled, pulling, rfl⟩ := returned
  split at pulling
  · obtain ⟨held, rfl⟩ := pullCLFunds_ok pulling
    exact ⟨held, rfl⟩
  · rename_i nothing
    rw [pure_eq_ok] at pulling
    subst pulling
    have exited : increase.exitedAmountIncrease = 0 := by omega
    have skimmed : increase.skimmedAmountIncrease = 0 := by omega
    refine ⟨by omega, ?_⟩
    simp only [applied, River.reported, exited, skimmed, Nat.add_zero,
      Nat.sub_zero]

theorem pullRedeemManagerExceedingEth_ok {max pulled : Nat}
    (returned : system.pullRedeemManagerExceedingEth max =
      .ok (after, pulled)) :
    ∃ redeemManager,
      system.redeemManager.pullExceedingEth max =
        .ok (redeemManager, pulled) ∧
      after = system.collected redeemManager pulled := by
  simp only [pullRedeemManagerExceedingEth, bind_eq_ok, pure_eq_ok,
    Prod.mk.injEq, Prod.exists] at returned
  obtain ⟨redeemManager, sent, sending, river, got, collecting, rfl, rfl⟩ :=
    returned
  obtain ⟨rfl, rfl⟩ := River.collectToDeposit_ok collecting
  exact ⟨redeemManager, sending, rfl⟩

theorem pullExceedingEth_zero (redeemManager : RedeemManager) :
    redeemManager.pullExceedingEth 0 = .ok (redeemManager, 0) := by
  simp [RedeemManager.pullExceedingEth, LibUint256.min_eq, pure, Except.pure]

/-- The three pulls together. -/
structure Pulls (system : System) (funds : ExternalFunds)
    (rewards available : Nat) (trace : ReportingTrace)
    (redeemManager : RedeemManager) : Prop where
  elFees : trace.pulledELFees = funds.pullELFees available
  rewards : trace.rewards = rewards + trace.pulledELFees
  exceeding : system.redeemManager.pullExceedingEth
    (available - trace.pulledELFees) =
      .ok (redeemManager, trace.pulledRedeemManagerExceedingEthBuffer)
  within : trace.pulledELFees +
    trace.pulledRedeemManagerExceedingEthBuffer + trace.pulledCoverageFunds ≤
      available

theorem pullELFees_ok {funds : ExternalFunds} {max pulled : Nat}
    (returned : system.pullELFees funds max = .ok (after, pulled)) :
    pulled = funds.pullELFees max ∧
      after = { system with river := system.river.received pulled } := by
  simp only [pullELFees, bind_eq_ok, pure_eq_ok, Prod.mk.injEq, Prod.exists]
    at returned
  obtain ⟨river, got, collecting, rfl, rfl⟩ := returned
  obtain ⟨rfl, rfl⟩ := River.collectToDeposit_ok collecting
  exact ⟨rfl, rfl⟩

theorem pullCoverageFunds_ok {funds : ExternalFunds} {max pulled : Nat}
    (returned : system.pullCoverageFunds funds max = .ok (after, pulled)) :
    pulled ≤ max ∧
      after = { system with river := system.river.received pulled } := by
  unfold pullCoverageFunds at returned
  split at returned
  · simp only [pure_eq_ok, Prod.mk.injEq] at returned
    obtain ⟨rfl, rfl⟩ := returned
    exact ⟨Nat.zero_le _, rfl⟩
  · simp only [bind_eq_ok, pure_eq_ok, Prod.mk.injEq, Prod.exists]
      at returned
    obtain ⟨river, got, collecting, rfl, rfl⟩ := returned
    obtain ⟨rfl, rfl⟩ := River.collectToDeposit_ok collecting
    exact ⟨funds.pullCoverageFunds_le max, rfl⟩

-- A pull of nothing is left out, and would bring nothing.

theorem pulledELFees_ok {funds : ExternalFunds} {available pulled : Nat}
    (returned : (if available > 0 then system.pullELFees funds available
      else pure (system, 0)) = .ok (after, pulled)) :
    pulled = funds.pullELFees available ∧
      after = { system with river := system.river.received pulled } := by
  split at returned
  · exact pullELFees_ok returned
  · rw [pure_eq_ok] at returned
    cases returned
    have nothing := funds.pullELFees_le available
    exact ⟨by omega, rfl⟩

theorem pulledExceeding_ok {available pulled : Nat}
    (returned : (if available > 0 then
      system.pullRedeemManagerExceedingEth available
      else pure (system, 0)) = .ok (after, pulled)) :
    ∃ redeemManager,
      system.redeemManager.pullExceedingEth available =
        .ok (redeemManager, pulled) ∧
      after = system.collected redeemManager pulled := by
  split at returned
  · exact pullRedeemManagerExceedingEth_ok returned
  · rename_i none
    rw [pure_eq_ok] at returned
    cases returned
    refine ⟨system.redeemManager, ?_, rfl⟩
    rw [Nat.eq_zero_of_not_pos none, pullExceedingEth_zero]

theorem pulledCoverageFunds_ok {funds : ExternalFunds}
    {available pulled : Nat}
    (returned : (if available > 0 then system.pullCoverageFunds funds available
      else pure (system, 0)) = .ok (after, pulled)) :
    pulled ≤ available ∧
      after = { system with river := system.river.received pulled } := by
  split at returned
  · exact pullCoverageFunds_ok returned
  · rw [pure_eq_ok] at returned
    cases returned
    exact ⟨Nat.zero_le _, rfl⟩

theorem pullWithin_ok {funds : ExternalFunds} {rewards available : Nat}
    {trace : ReportingTrace}
    (returned : system.pullWithin funds rewards available =
      .ok (after, trace)) :
    ∃ redeemManager,
      Pulls system funds rewards available trace redeemManager ∧
      after = system.collected redeemManager trace.collected := by
  simp only [pullWithin, bind_eq_ok, uadd_eq_ok, usub_eq_ok, pure_eq_ok,
    Prod.mk.injEq, Prod.exists] at returned
  obtain ⟨first, elFees, pullingFees, total, ⟨-, rfl⟩, left, ⟨feesWithin, rfl⟩,
    second, exceeding, pullingExceeding, rest, ⟨exceedingWithin, rfl⟩, third,
    coverage, pullingCoverage, rfl, rfl⟩ := returned
  obtain ⟨elFeesEq, rfl⟩ := pulledELFees_ok pullingFees
  obtain ⟨redeemManager, sent, rfl⟩ := pulledExceeding_ok pullingExceeding
  obtain ⟨coverageWithin, rfl⟩ := pulledCoverageFunds_ok pullingCoverage
  refine ⟨redeemManager, ⟨elFeesEq, rfl, sent, by dsimp only; omega⟩, ?_⟩
  simp only [collected, River.received_received, ReportingTrace.collected]

/-- Exits are requested in the registry only, where they are demanded in one
call or not at all. -/
theorem requestExits_ok {exitingBalance : Nat} {allowed : Bool}
    (returned : system.requestExits exitingBalance allowed = .ok after) :
    ∃ registry rebalancing,
      (registry = system.registry ∨ ∃ count,
        system.registry.demandValidatorExits count
          system.river.depositedValidatorCount = .ok registry) ∧
      rebalancing ≤ system.river.balanceToDeposit ∧
      after = system.requested registry rebalancing := by
  unfold requestExits at returned
  split at returned
  · simp only [bind_eq_ok, uadd_eq_ok] at returned
    obtain ⟨demand, -, covered, ⟨-, rfl⟩, returned⟩ := returned
    split at returned
    · simp only [bind_eq_ok, umul_eq_ok, uadd_eq_ok, Prod.exists] at returned
      obtain ⟨river, rebalancing, stopped, exits, -, preExiting, -,
        preExitingBalance, -, reserve, -, reserveTotal, -, returned⟩ :=
        returned
      obtain ⟨amount, held, rfl⟩ := River.rebalance_ok rebalancing
      split at returned
      · simp only [bind_eq_ok, usub_eq_ok, pure_eq_ok] at returned
        obtain ⟨missing, -, count, -, registry, demanding, rfl⟩ := returned
        exact ⟨registry, amount, .inr ⟨count, demanding⟩, held, rfl⟩
      · rw [pure_eq_ok] at returned
        exact ⟨system.registry, amount, .inl rfl, held, returned.symm⟩
    · rw [pure_eq_ok] at returned
      exact ⟨system.registry, 0, .inl rfl, Nat.zero_le _, returned.symm⟩
  · rw [pure_eq_ok] at returned
    exact ⟨system.registry, 0, .inl rfl, Nat.zero_le _, returned.symm⟩

theorem requestExitsBasedOnRedeemDemandAfterRebalancings_ok
    {exitingBalance : Nat} {counts : List Nat} {allowed contained : Bool}
    (accounted : system.registry.Accounted
      system.river.depositedValidatorCount)
    (returned : system.requestExitsBasedOnRedeemDemandAfterRebalancings
      exitingBalance counts allowed contained = .ok after) :
    ∃ registry rebalancing,
      registry.Accounted system.river.depositedValidatorCount ∧
      rebalancing ≤ system.river.balanceToDeposit ∧
      after = system.requested registry rebalancing := by
  simp only [requestExitsBasedOnRedeemDemandAfterRebalancings, bind_eq_ok]
    at returned
  obtain ⟨registry, reporting, returned⟩ := returned
  have reported :=
    OperatorsRegistry.reportStoppedValidatorCounts_ok accounted reporting
  split at returned
  · rw [pure_eq_ok] at returned
    exact ⟨registry, 0, reported, Nat.zero_le _, returned.symm⟩
  · obtain ⟨registry, rebalancing, demanded, held, rfl⟩ :=
      requestExits_ok returned
    refine ⟨registry, rebalancing, ?_, held, rfl⟩
    rcases demanded with rfl | ⟨count, demanding⟩
    · exact reported
    · exact OperatorsRegistry.demandValidatorExits_ok reported demanding

/-- Either the whole demand is served, or all of the redeem balance is sent
for as many shares as it is worth. -/
theorem suppliedDemand_ok {amount eth : Nat}
    (returned : system.suppliedDemand = .ok (amount, eth)) :
    (system.river.pool.worth system.redeemManager.redeemDemand ≤
        system.river.balanceToRedeem ∧
      amount = system.redeemManager.redeemDemand ∧
      eth = system.river.pool.worth system.redeemManager.redeemDemand) ∨
    (system.river.balanceToRedeem <
        system.river.pool.worth system.redeemManager.redeemDemand ∧
      amount = system.river.pool.sharesOf system.river.balanceToRedeem ∧
      eth = system.river.balanceToRedeem) := by
  simp only [suppliedDemand, bind_eq_ok] at returned
  obtain ⟨inEth, valued, returned⟩ := returned
  obtain ⟨rfl, -⟩ := River.balanceFromShares_ok valued
  split at returned
  · rename_i limited
    simp only [bind_eq_ok, pure_eq_ok, Prod.mk.injEq] at returned
    obtain ⟨supplied, converted, rfl, rfl⟩ := returned
    exact .inr ⟨limited, (River.sharesFromBalance_ok converted).1, rfl⟩
  · rename_i enough
    simp only [pure_eq_ok, Prod.mk.injEq] at returned
    obtain ⟨rfl, rfl⟩ := returned
    exact .inl ⟨Nat.le_of_not_lt enough, rfl, rfl⟩

theorem suppliedDemand_le {amount eth : Nat}
    (returned : system.suppliedDemand = .ok (amount, eth)) :
    amount ≤ system.redeemManager.redeemDemand := by
  rcases suppliedDemand_ok returned with ⟨-, rfl, -⟩ | ⟨limited, rfl, -⟩
  · exact Nat.le_refl _
  · exact Rate.Pool.sharesOf_le (Nat.le_of_lt limited)

/-- A withdrawal of `eth` wei for `amount` burnt shares. -/
structure Withdrawal (deployment : Deployment) (system : System)
    (amount eth : Nat) (after : System) : Prop where
  assets_pos : 0 < system.river.assets
  shares_pos : 0 < system.river.shares
  eth_pos : 0 < eth
  supplied : system.suppliedDemand = .ok (amount, eth)
  eth_le : eth ≤ system.river.balanceToRedeem
  owned : amount ≤ system.river.sharesPerOwner deployment.redeemManager
  minted : amount ≤ system.river.shares
  reported : system.redeemManager.reportWithdraw amount eth =
    .ok after.redeemManager
  after_eq : after = { system with
    redeemManager := after.redeemManager
    river := system.river.withdrawn deployment.redeemManager amount eth }

theorem reportWithdrawToRedeemManager_ok
    (returned : system.reportWithdrawToRedeemManager deployment =
      .ok after) :
    (after = system ∧ (system.river.assets = 0 ∨ system.river.shares = 0 ∨
        ∃ amount, system.suppliedDemand = .ok (amount, 0))) ∨
      ∃ amount eth, Withdrawal deployment system amount eth after := by
  simp only [reportWithdrawToRedeemManager, bind_eq_ok] at returned
  obtain ⟨assets, valued, returned⟩ := returned
  have same := River.assetBalance_ok valued
  subst same
  split at returned
  · rename_i positive
    simp only [bind_eq_ok, Prod.exists] at returned
    obtain ⟨amount, eth, supplied, returned⟩ := returned
    split at returned
    · rename_i ethPositive
      simp only [bind_eq_ok, require_eq_ok, pure_eq_ok] at returned
      obtain ⟨burnt, burning, -, held, redeemManager, reporting, rfl⟩ :=
        returned
      obtain ⟨minted, owned, rfl⟩ := River.burnRawShares_ok burning
      refine .inr ⟨amount, eth, positive.1, positive.2, ethPositive, supplied,
        ?_, owned, minted, reporting, rfl⟩
      rcases suppliedDemand_ok supplied with ⟨enough, -, rfl⟩ | ⟨-, -, rfl⟩
      · exact enough
      · exact Nat.le_refl _
    · rename_i none
      rw [pure_eq_ok] at returned
      rw [Nat.eq_zero_of_not_pos none] at supplied
      exact .inl ⟨returned.symm, .inr (.inr ⟨amount, supplied⟩)⟩
  · rename_i empty
    rw [pure_eq_ok] at returned
    exact .inl ⟨returned.symm, by omega⟩

section Report

variable {funds : ExternalFunds} {timestamp : Nat} {sender : Address}
  {report : ConsensusLayerReport} {increase : River.ReportIncrease}
  {trace : ReportingTrace} {prepared : System}

/-- The stages of a report before its withdrawal step. -/
structure Preparation (funds : ExternalFunds) (timestamp : Nat)
    (sender : Address) (report : ConsensusLayerReport) (system : System)
    (prepared : System) (increase : River.ReportIncrease)
    (trace : ReportingTrace) where
  rewards : Nat
  available : Nat
  redeemManager : RedeemManager
  registry : OperatorsRegistry
  rebalancing : Nat
  checking : system.river.checkReport sender timestamp report = .ok increase
  applying : system.applyReport increase report =
    .ok (system.applied increase report)
  bounds : River.checkBounds system.river.config.reportBounds
    increase.timeElapsedSinceLastReport system.river.assets
    (system.applied increase report).river.assets = .ok (rewards, available)
  pulls : Pulls (system.applied increase report) funds rewards available trace
    redeemManager
  earning : (if trace.rewards > 0 then
      ((system.applied increase report).collected redeemManager
        trace.collected).river.onEarnings trace.rewards
    else pure ((system.applied increase report).collected redeemManager
      trace.collected).river) =
    .ok (((system.applied increase report).collected redeemManager
      trace.collected).rewarded trace.rewards).river
  accounted : registry.Accounted system.river.depositedValidatorCount
  rebalanced : rebalancing ≤
    (((system.applied increase report).collected redeemManager
      trace.collected).rewarded trace.rewards).river.balanceToDeposit
  prepared_eq : prepared =
    (((system.applied increase report).collected redeemManager
      trace.collected).rewarded trace.rewards).requested registry rebalancing

theorem prepareReport_ok
    (accounted : system.registry.Accounted
      system.river.depositedValidatorCount)
    (returned : system.prepareReport funds timestamp sender report =
      .ok (prepared, increase, trace)) :
    Nonempty (Preparation funds timestamp sender report system prepared
      increase trace) := by
  simp only [prepareReport, bind_eq_ok, pure_eq_ok, Prod.mk.injEq,
    Prod.exists] at returned
  obtain ⟨increase, checking, before, beforeValued, applied, applying, post,
    postValued, rewards, available, bounding, pulled, answer, pulling,
    rewardedRiver, earning, requested, requesting, rfl, rfl, rfl⟩ := returned
  have beforeEq := River.assetBalance_ok beforeValued
  subst beforeEq
  obtain ⟨-, rfl⟩ := applyReport_ok applying
  have postEq := River.assetBalance_ok postValued
  subst postEq
  obtain ⟨redeemManager, pulls, rfl⟩ := pullWithin_ok pulling
  have rewardedEq := (River.earned_ok earning).2
  subst rewardedEq
  obtain ⟨registry, rebalancing, accountedAfter, rebalanced, rfl⟩ := by
    apply requestExitsBasedOnRedeemDemandAfterRebalancings_ok ?_ requesting
    exact accounted
  exact ⟨rewards, available, redeemManager, registry, rebalancing, checking,
    applying, bounding, pulls, earning, accountedAfter, rebalanced, rfl⟩

theorem finishReport_ok {timeElapsed : Nat} {contained : Bool}
    (returned : system.finishReport deployment timeElapsed contained =
      .ok after) :
    ∃ withdrawn deposits,
      system.reportWithdrawToRedeemManager deployment = .ok withdrawn ∧
      depositSize * deposits ≤ withdrawn.river.skimmed.balanceToDeposit ∧
      after = withdrawn.settled deposits := by
  simp only [finishReport, bind_eq_ok, pure_eq_ok] at returned
  obtain ⟨withdrawn, withdrawing, skimmed, skimming, committed, committing,
    rfl⟩ := returned
  have skimmedEq := River.skimExcessBalanceToRedeem_ok skimming
  subst skimmedEq
  obtain ⟨deposits, held, rfl⟩ := River.commitBalanceToDeposit_ok committing
  exact ⟨withdrawn, deposits, withdrawing, held, rfl⟩

theorem setConsensusLayerData_ok
    (returned : system.setConsensusLayerData deployment funds timestamp
      sender report = .ok (after, trace)) :
    ∃ prepared increase,
      system.prepareReport funds timestamp sender report =
        .ok (prepared, increase, trace) ∧
      prepared.finishReport deployment increase.timeElapsedSinceLastReport
        report.slashingContainmentMode = .ok after := by
  simp only [setConsensusLayerData, bind_eq_ok, pure_eq_ok, Prod.mk.injEq,
    Prod.exists] at returned
  obtain ⟨prepared, increase, answer, preparing, done, finishing, rfl, rfl⟩ :=
    returned
  exact ⟨prepared, increase, preparing, finishing⟩

/-- The stages of an accepted report. -/
structure ReportRun (deployment : Deployment) (funds : ExternalFunds)
    (timestamp : Nat) (sender : Address) (report : ConsensusLayerReport)
    (system after : System) (trace : ReportingTrace) where
  prepared : System
  increase : River.ReportIncrease
  withdrawn : System
  deposits : Nat
  preparing : system.prepareReport funds timestamp sender report =
    .ok (prepared, increase, trace)
  stages : Preparation funds timestamp sender report system prepared increase
    trace
  withdrawing : prepared.reportWithdrawToRedeemManager deployment =
    .ok withdrawn
  after_eq : after = withdrawn.settled deposits

theorem setConsensusLayerData_run
    (accounted : system.registry.Accounted
      system.river.depositedValidatorCount)
    (returned : system.setConsensusLayerData deployment funds timestamp
      sender report = .ok (after, trace)) :
    Nonempty (ReportRun deployment funds timestamp sender report system after
      trace) := by
  obtain ⟨prepared, increase, preparing, finishing⟩ :=
    setConsensusLayerData_ok returned
  obtain ⟨stages⟩ := prepareReport_ok accounted preparing
  obtain ⟨withdrawn, deposits, withdrawing, -, rfl⟩ :=
    finishReport_ok finishing
  exact ⟨prepared, increase, withdrawn, deposits, preparing, stages,
    withdrawing, rfl⟩

/-- The redeem manager gives from its buffer before the withdrawal step. -/
theorem ReportRun.pulled
    (run : ReportRun deployment funds timestamp sender report system after
      trace) :
    ∃ max, system.redeemManager.pullExceedingEth max =
      .ok (run.prepared.redeemManager,
        trace.pulledRedeemManagerExceedingEthBuffer) := by
  have pulled := run.stages.pulls.exceeding
  have manager := congrArg System.redeemManager run.stages.prepared_eq
  rw [manager]
  exact ⟨_, pulled⟩

end Report

end System

end RiverProtocol
