import RiverProtocol.OperatorsRegistry.Progress
import RiverProtocol.River.Progress
import RiverProtocol.System.Books

/-!
# A report that passes its checks completes

The checks of a report are collected in `Acceptable`.  From a reachable state
nothing else stops a report, unless a sum or a product leaves its width.
-/

namespace RiverProtocol

open Checked Outcome

namespace System

variable {deployment : Deployment} {system after prepared : System}
  {funds : ExternalFunds} {timestamp : Nat} {sender : Address}
  {report : ConsensusLayerReport} {increase : River.ReportIncrease}
  {trace : ReportingTrace}

/-- What the values of a report add to the last ones. -/
def increaseOf (system : System) (report : ConsensusLayerReport) :
    River.ReportIncrease :=
  { exitedAmountIncrease := report.validatorsExitedBalance -
      system.river.lastConsensusLayerReport.validatorsExitedBalance
    skimmedAmountIncrease := report.validatorsSkimmedBalance -
      system.river.lastConsensusLayerReport.validatorsSkimmedBalance
    timeElapsedSinceLastReport := River.elapsedSeconds
      system.river.config.clSpec system.river.lastConsensusLayerReport.epoch
      report.epoch }

/-- The asset balance once the values of a report are applied. -/
def assetsAfter (system : System) (report : ConsensusLayerReport) : Nat :=
  (system.applied (system.increaseOf report) report).river.assets

/-- The explicit checks on a report. -/
structure Acceptable (system : System) (timestamp : Nat) (sender : Address)
    (report : ConsensusLayerReport) (total : Nat) (counts : List Nat) :
    Prop where
  oracle : sender = system.river.config.oracle
  epoch : system.river.isValidEpoch timestamp report.epoch = .ok true
  exited : system.river.lastConsensusLayerReport.validatorsExitedBalance ≤
    report.validatorsExitedBalance
  skimmed : system.river.lastConsensusLayerReport.validatorsSkimmedBalance ≤
    report.validatorsSkimmedBalance
  deposited : report.validatorsCount ≤ system.river.depositedValidatorCount
  activated : system.river.lastConsensusLayerReport.validatorsCount ≤
    report.validatorsCount
  held : (system.increaseOf report).skimmedAmountIncrease +
    (system.increaseOf report).exitedAmountIncrease ≤ system.withdraw.balance
  upper : system.assetsAfter report ≤ system.river.assets +
    system.river.config.reportBounds.increase system.river.assets
      (system.increaseOf report).timeElapsedSinceLastReport
  lower : system.river.assets - min
      (system.river.config.reportBounds.decrease system.river.assets)
      system.river.assets ≤ system.assetsAfter report
  stopped : report.stoppedValidatorCountPerOperator = total :: counts
  counts : OperatorsRegistry.AcceptedCounts system.registry
    system.river.depositedValidatorCount total counts

theorem completes_checkReport {total : Nat} {counts : List Nat}
    (acceptable : Acceptable system timestamp sender report total counts) :
    Completes (system.river.checkReport sender timestamp report) := by
  have later := River.isValidEpoch_later acceptable.epoch
  refine .bind (.require acceptable.oracle) fun _ _ => ?_
  rw [acceptable.epoch, ok_bind]
  refine .bind (.require rfl) fun _ _ => ?_
  refine .bind (.require acceptable.exited) fun _ _ => ?_
  refine .bind (completes_usub acceptable.exited) fun _ _ => ?_
  refine .bind (.require acceptable.skimmed) fun _ _ => ?_
  refine .bind (.require ⟨acceptable.deposited, acceptable.activated⟩)
    fun _ _ => ?_
  refine .bind (completes_usub acceptable.skimmed) fun _ _ => ?_
  exact .bind (River.completes_timeBetweenEpochs (Nat.le_of_lt later))
    fun _ _ => .pure _

theorem increaseOf_eq
    (checking : system.river.checkReport sender timestamp report =
      .ok increase) : increase = system.increaseOf report := by
  have checked := River.checkReport_ok checking
  have exited := checked.exited
  have skimmed := checked.skimmed
  have elapsed := River.timeBetweenEpochs_ok checked.elapsed
  cases increase with
  | mk exitedIncrease skimmedIncrease timeElapsed =>
      simp only [increaseOf, River.ReportIncrease.mk.injEq]
      dsimp only at exited skimmed elapsed
      exact ⟨by omega, by omega, elapsed⟩

theorem completes_applyReport
    (held : increase.skimmedAmountIncrease + increase.exitedAmountIncrease ≤
      system.withdraw.balance) :
    Completes (system.applyReport increase report) := by
  refine .bind completes_uadd fun total _ => ?_
  refine .bind ?_ fun _ _ => .pure _
  split
  · refine .bind completes_uadd fun amount added => ?_
    obtain ⟨-, rfl⟩ := uadd_eq_ok.mp added
    refine .bind completes_uadd fun balance added => ?_
    obtain ⟨-, rfl⟩ := uadd_eq_ok.mp added
    refine .bind (completes_usub (Nat.le_add_right _ _))
      fun collected difference => ?_
    obtain ⟨-, rfl⟩ := usub_eq_ok.mp difference
    refine .bind (.require ?_) fun _ _ => ?_
    · rw [LibUint256.min_eq, Nat.add_sub_cancel_left, Nat.min_eq_right held]
    · refine .bind ?_ fun _ _ => .bind ?_ fun _ _ => .pure _
      · split
        · exact completes_uadd
        · exact .pure _
      · split
        · exact completes_uadd
        · exact .pure _
  · exact .pure _

theorem completes_pullExceedingEth {redeemManager : RedeemManager} {max : Nat}
    (solvent : RedeemManager.Solvent redeemManager 0) :
    Completes (redeemManager.pullExceedingEth max) := by
  have covered := solvent.covered
  have held : min redeemManager.bufferedExceedingEth max ≤
      redeemManager.balance := by
    have buffered : min redeemManager.bufferedExceedingEth max ≤
        redeemManager.bufferedExceedingEth := Nat.min_le_left _ _
    omega
  obtain ⟨after, sent, returned⟩ := RedeemManager.pullExceedingEth_of_le held
  rw [returned]
  exact trivial

theorem completes_pullWithin {rewards available : Nat}
    (solvent : RedeemManager.Solvent system.redeemManager 0) :
    Completes (system.pullWithin funds rewards available) := by
  refine .bind ?_ fun first pulling => ?_
  · split
    · exact .bind River.completes_collectToDeposit fun _ _ => .pure _
    · exact .pure _
  obtain ⟨fees, received⟩ := pulledELFees_ok pulling
  refine .bind completes_uadd fun _ _ => ?_
  refine .bind (completes_usub (fees.trans_le
    (funds.pullELFees_le available))) fun left difference => ?_
  obtain ⟨-, rfl⟩ := usub_eq_ok.mp difference
  refine .bind ?_ fun second pulling => ?_
  · split
    · refine .bind ?_ fun _ _ =>
        .bind River.completes_collectToDeposit fun _ _ => .pure _
      apply completes_pullExceedingEth
      rw [received]
      exact solvent
    · exact .pure _
  obtain ⟨manager, sent, -⟩ := pulledExceeding_ok pulling
  obtain ⟨amount, -⟩ := RedeemManager.pullExceedingEth_ok sent
  have exceeding : second.2 ≤ available - first.2 :=
    amount.trans_le (Nat.min_le_right _ _)
  refine .bind (completes_usub exceeding) fun rest _ => ?_
  refine .bind ?_ fun _ _ => .pure _
  split
  · unfold pullCoverageFunds
    split
    · exact .pure _
    · exact .bind River.completes_collectToDeposit fun _ _ => .pure _
  · exact .pure _

theorem Pulls.rewards_le {redeemManager : RedeemManager} {rb : ReportBounds}
    {timeElapsed preReport postReport rewards available : Nat}
    (pulls : Pulls system funds rewards available trace redeemManager)
    (bounded : River.Bounded rb timeElapsed preReport postReport rewards
      available) : trace.rewards ≤ postReport + trace.collected := by
  have fees : trace.pulledELFees ≤ trace.collected := by
    unfold ReportingTrace.collected
    omega
  rw [pulls.rewards, bounded.rewards]
  exact Nat.add_le_add (Nat.sub_le _ _) fees

theorem completes_requestExits {exitingBalance : Nat} {allowed : Bool}
    (accounted : system.registry.Accounted
      system.river.depositedValidatorCount) :
    Completes (system.requestExits exitingBalance allowed) := by
  unfold requestExits
  split
  · refine .bind River.completes_balanceFromShares fun demand _ => ?_
    refine .bind completes_uadd fun covered added => ?_
    obtain ⟨-, rfl⟩ := uadd_eq_ok.mp added
    split
    · rename_i missing
      refine .bind (River.completes_rebalance missing) fun river moving => ?_
      refine .bind OperatorsRegistry.completes_getStoppedAndRequestedExitCounts
        fun counts _ => ?_
      refine .bind ?_ fun preExiting _ => ?_
      · split
        · rename_i more
          exact completes_usub (Nat.le_of_lt more)
        · exact .pure _
      refine .bind completes_umul fun preExitingBalance _ => ?_
      refine .bind completes_uadd fun redeemable _ => ?_
      refine .bind completes_uadd fun covered _ => ?_
      split
      · rename_i uncovered
        refine .bind (completes_usub (Nat.le_of_lt uncovered)) fun rest _ => ?_
        refine .bind (.bind (completes_udiv (by decide)) fun _ _ =>
          .bind (completes_umod (by decide)) fun _ _ => completes_uadd)
          fun count _ => ?_
        obtain ⟨amount, -, rfl⟩ := River.rebalance_ok moving
        exact .bind (OperatorsRegistry.completes_demandValidatorExits accounted)
          fun _ _ => .pure _
      · exact .pure _
    · exact .pure _
  · exact .pure _

theorem completes_requestExitsBasedOnRedeemDemandAfterRebalancings
    {exitingBalance total : Nat} {counts : List Nat} {allowed contained : Bool}
    (accounted : system.registry.Accounted
      system.river.depositedValidatorCount)
    (accepted : OperatorsRegistry.AcceptedCounts system.registry
      system.river.depositedValidatorCount total counts) :
    Completes (system.requestExitsBasedOnRedeemDemandAfterRebalancings
      exitingBalance (total :: counts) allowed contained) := by
  refine .bind
    (OperatorsRegistry.completes_reportStoppedValidatorCounts accepted)
    fun registry reporting => ?_
  have reported :=
    OperatorsRegistry.reportStoppedValidatorCounts_ok accounted reporting
  dsimp only
  split
  · exact .pure _
  · apply completes_requestExits
    exact reported

theorem completes_prepareReport {total : Nat} {counts : List Nat}
    (sound : Sound deployment system)
    (solvent : RedeemManager.Solvent system.redeemManager 0)
    (supplied : 0 < system.river.shares)
    (acceptable : Acceptable system timestamp sender report total counts) :
    Completes (system.prepareReport funds timestamp sender report) := by
  refine .bind (completes_checkReport acceptable) fun increase checking => ?_
  obtain rfl := increaseOf_eq checking
  refine .bind River.completes_assetBalance fun before valued => ?_
  obtain rfl := River.assetBalance_ok valued
  refine .bind (completes_applyReport acceptable.held) fun applied applying => ?_
  obtain ⟨-, rfl⟩ := applyReport_ok applying
  refine .bind River.completes_assetBalance fun post valued => ?_
  obtain rfl := River.assetBalance_ok valued
  refine .bind (River.completes_checkBounds acceptable.upper acceptable.lower)
    fun bounds bounding => ?_
  obtain ⟨rewards, available⟩ := bounds
  refine .bind (completes_pullWithin solvent) fun pulled pulling => ?_
  obtain ⟨pulled, trace⟩ := pulled
  obtain ⟨redeemManager, pulls, rfl⟩ := pullWithin_ok pulling
  have earned : trace.rewards ≤ ((system.applied (system.increaseOf report)
      report).collected redeemManager trace.collected).river.assets :=
    (pulls.rewards_le (River.checkBounds_ok bounding)).trans_eq
      River.received_assets.symm
  refine .bind ?_ fun rewarded earning => ?_
  · split
    · exact River.completes_onEarnings supplied earned
    · exact .pure _
  obtain ⟨-, rfl⟩ := River.earned_ok earning
  refine .bind ?_ fun _ _ => .pure _
  rw [acceptable.stopped]
  apply completes_requestExitsBasedOnRedeemDemandAfterRebalancings
  · exact sound.registry
  · exact acceptable.counts

theorem completes_nextHeight (positions : List (Nat × Nat)) :
    Completes (RedeemManager.nextHeight positions
      (toUint32 positions.length)) := by
  unfold RedeemManager.nextHeight
  split
  · rename_i nonzero
    have inside := toUint32_le positions.length
    exact .bind (.fetch (by omega)) fun _ _ => completes_uadd
  · exact .pure _

theorem completes_reportWithdraw {redeemManager : RedeemManager}
    {amount eth : Nat} (demanded : amount ≤ redeemManager.redeemDemand) :
    Completes (redeemManager.reportWithdraw amount eth) := by
  refine .bind completes_uadd fun _ _ => ?_
  refine .bind (.require demanded) fun _ _ => ?_
  refine .bind ?_ fun _ _ => .pure _
  have heights := completes_nextHeight
    (redeemManager.withdrawalStack.map WithdrawalEvent.position)
  rw [List.length_map] at heights
  exact heights

theorem completes_suppliedDemand : Completes system.suppliedDemand := by
  refine .bind River.completes_balanceFromShares fun _ _ => ?_
  dsimp only
  split
  · exact .bind River.completes_sharesFromBalance fun _ _ => .pure _
  · exact .pure _

/-- The redeem manager owns what is burnt, and River holds what is sent. -/
theorem completes_reportWithdrawToRedeemManager
    (sound : Sound deployment system) :
    Completes (system.reportWithdrawToRedeemManager deployment) := by
  refine .bind River.completes_assetBalance fun assets valued => ?_
  dsimp only
  split
  · refine .bind completes_suppliedDemand fun supply supplied => ?_
    obtain ⟨amount, eth⟩ := supply
    have demanded := suppliedDemand_le supplied
    have owned := demanded.trans sound.redeem_backed
    have minted := owned.trans (sound.river.owned_le _)
    have held : eth ≤ system.river.balance := by
      have ledger := sound.river.ledger
      rcases suppliedDemand_ok supplied with ⟨enough, -, rfl⟩ | ⟨-, -, rfl⟩
      · omega
      · omega
    dsimp only
    split
    · rw [River.burnRawShares_of_le, ok_bind]
      · refine .bind (.require held) fun _ _ => ?_
        exact .bind (completes_reportWithdraw demanded) fun _ _ => .pure _
      · exact minted
      · exact owned
    · exact .pure _
  · exact .pure _

theorem completes_finishReport {timeElapsed : Nat} {contained : Bool}
    (sound : Sound deployment system) :
    Completes (system.finishReport deployment timeElapsed contained) := by
  refine .bind (completes_reportWithdrawToRedeemManager sound) fun _ _ => ?_
  refine .bind River.completes_skimExcessBalanceToRedeem fun _ _ => ?_
  exact .bind River.completes_commitBalanceToDeposit fun _ _ => .pure _

/-- A report that passes its checks is accepted, unless a sum or a product
leaves its width. -/
theorem report_completes {total : Nat} {counts : List Nat}
    (reachable : Reachable deployment system)
    (supplied : 0 < system.river.shares)
    (acceptable : Acceptable system timestamp sender report total counts) :
    (∃ result, system.setConsensusLayerData deployment funds timestamp sender
        report = .ok result) ∨
      system.setConsensusLayerData deployment funds timestamp sender report =
        .error (.panic .overflow) := by
  have sound := Sound.of_reachable reachable
  have solvent := RedeemManager.Solvent.of_reachable
    (redeemManager_reachable reachable)
  apply completes_iff.mp
  refine .bind (completes_prepareReport sound solvent supplied acceptable)
    fun preparation preparing => ?_
  obtain ⟨prepared, increase, trace⟩ := preparation
  exact .bind (completes_finishReport (sound.prepare preparing))
    fun _ _ => .pure _

/-- The next report of the sample run passes its checks. -/
theorem quietReport_acceptable (returned : sampleRun = .ok system) :
    0 < system.river.shares ∧ Acceptable system 1000000 (.ofNat 11)
      (quietReport 675 true) 0 [] := by
  have checked : returns sampleRun (fun system =>
      0 < system.river.shares ∧
      .ofNat 11 = system.river.config.oracle ∧
      returns (system.river.isValidEpoch 1000000 675) (fun valid => valid) ∧
      system.river.lastConsensusLayerReport =
        (quietReport 450 true).toStoredConsensusLayerReport ∧
      system.river.depositedValidatorCount = 0 ∧
      system.river.assets = depositSize ∧
      system.assetsAfter (quietReport 675 true) = depositSize ∧
      system.registry.stoppedValidators.length = 1) = true := by
    decide +kernel
  obtain ⟨sampled, same, facts⟩ := returns_iff.mp checked
  obtain rfl := Except.ok.inj (returned.symm.trans same)
  obtain ⟨supplied, oracle, epoch, last, deposited, assets, assetsAfter,
    stopped⟩ := of_decide_eq_true facts
  obtain ⟨valid, epoch, isTrue⟩ := returns_iff.mp epoch
  have counts : OperatorsRegistry.AcceptedCounts system.registry
      system.river.depositedValidatorCount 0 [] :=
    { known := Nat.zero_le _
      kept := Nat.le_of_eq stopped
      grown := by simp
      funded := by simp
      sum := rfl
      total_le := Nat.zero_le _ }
  refine ⟨supplied, ?_⟩
  exact {
    oracle := oracle
    epoch := by rw [← isTrue]; exact epoch
    exited := by rw [last]; exact Nat.le_refl _
    skimmed := by rw [last]; exact Nat.le_refl _
    deposited := Nat.zero_le _
    activated := by rw [last]; exact Nat.le_refl _
    held := by simp [increaseOf, quietReport]
    upper := by rw [assets, assetsAfter]; exact Nat.le_add_right _ _
    lower := by rw [assets, assetsAfter]; exact Nat.sub_le _ _
    stopped := rfl
    counts := counts }

/-- It is not among the reports whose sums are too large. -/
theorem report_completes_sample : ∃ system result, sampleRun = .ok system ∧
    system.setConsensusLayerData sample (feesUpTo 1) 1000000 (.ofNat 11)
      (quietReport 675 true) = .ok result := by
  have checked : returns sampleRun (fun system =>
      system.setConsensusLayerData sample (feesUpTo 1) 1000000 (.ofNat 11)
        (quietReport 675 true) |>.isOk) = true := by
    decide +kernel
  obtain ⟨system, returned, fits⟩ := returns_iff.mp checked
  obtain ⟨supplied, acceptable⟩ := quietReport_acceptable returned
  rcases report_completes (sampleRun_reachable returned) supplied
    acceptable with ⟨result, reported⟩ | overflow
  · exact ⟨system, result, returned, reported⟩
  · rw [overflow] at fits
    cases fits

end System

end RiverProtocol
