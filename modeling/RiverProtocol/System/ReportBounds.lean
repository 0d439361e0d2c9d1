import RiverProtocol.System.Books

/-!
# What a report may change

The asset balance after a report, with the ether it sent to the redeem
manager, stays within the bounds computed from the balance before it, and the
fee is taken on the growth of the validators and the execution layer fees.
-/

namespace RiverProtocol

open Checked Outcome

namespace System

variable {deployment : Deployment} {system after prepared : System}
  {funds : ExternalFunds} {timestamp : Nat} {sender : Address}
  {report : ConsensusLayerReport} {increase : River.ReportIncrease}
  {trace : ReportingTrace}

/-- The ether of the events pushed since `system`. -/
def sentSince (system after : System) : Nat :=
  after.redeemManager.withdrawnTotal - system.redeemManager.withdrawnTotal

/-- The LsETH of the events pushed since `system`. -/
def burntSince (system after : System) : Nat :=
  after.redeemManager.eventAmounts.sum -
    system.redeemManager.eventAmounts.sum

theorem Preparation.assets_eq
    (stages : Preparation funds timestamp sender report system prepared
      increase trace) :
    prepared.river.assets =
      (system.applied increase report).river.assets + trace.collected := by
  have rebalanced := River.rebalanced_assets stages.rebalanced
  rw [stages.prepared_eq]
  exact rebalanced.trans (River.minted_assets.trans River.received_assets)

theorem Preparation.stack_eq
    (stages : Preparation funds timestamp sender report system prepared
      increase trace) :
    prepared.redeemManager.withdrawalStack =
      system.redeemManager.withdrawalStack := by
  obtain ⟨-, -, manager⟩ :=
    RedeemManager.pullExceedingEth_ok stages.pulls.exceeding
  have stack : stages.redeemManager.withdrawalStack =
      system.redeemManager.withdrawalStack := by
    rw [manager]
    rfl
  rw [stages.prepared_eq]
  exact stack

theorem Withdrawal.stack_eq {amount eth : Nat}
    (withdrawal : Withdrawal deployment system amount eth after) :
    after.redeemManager.withdrawnTotal =
        system.redeemManager.withdrawnTotal + eth ∧
      after.redeemManager.eventAmounts.sum =
        system.redeemManager.eventAmounts.sum + amount := by
  obtain ⟨-, -, height, -, manager⟩ :=
    RedeemManager.reportWithdraw_ok withdrawal.reported
  rw [manager]
  simp [RedeemManager.withdrawnTotal, RedeemManager.eventAmounts]

/-- What leaves River in the withdrawal step is on the stack afterwards. -/
theorem withdrawing_eq
    (returned : system.reportWithdrawToRedeemManager deployment =
      .ok after) :
    after.river.assets + sentSince system after = system.river.assets ∧
      after.river.shares + burntSince system after = system.river.shares := by
  rcases reportWithdrawToRedeemManager_ok returned with
    ⟨rfl, -⟩ | ⟨amount, eth, withdrawal⟩
  · simp [sentSince, burntSince]
  · obtain ⟨total, amounts⟩ := withdrawal.stack_eq
    rw [sentSince, burntSince, total, amounts, Nat.add_sub_cancel_left,
      Nat.add_sub_cancel_left, withdrawal.after_eq]
    exact ⟨River.withdrawn_assets withdrawal.eth_le,
      Nat.sub_add_cancel withdrawal.minted⟩

theorem finish_eq {timeElapsed : Nat} {contained : Bool}
    (returned : system.finishReport deployment timeElapsed contained =
      .ok after) :
    after.river.assets + sentSince system after = system.river.assets ∧
      after.river.shares + burntSince system after = system.river.shares := by
  obtain ⟨withdrawn, deposits, withdrawing, held, rfl⟩ :=
    finishReport_ok returned
  obtain ⟨assets, shares⟩ := withdrawing_eq withdrawing
  have committed := River.committed_assets held
  rw [River.skimmed_assets] at committed
  rw [← committed] at assets
  exact ⟨assets, shares⟩

/-- A report keeps the asset balance within its bounds, pulls no more than is
left below the upper one, and takes the fee on the growth of the validators
and the execution layer fees only. -/
theorem report_bounds (reachable : Reachable deployment system)
    (returned : system.setConsensusLayerData deployment funds timestamp
      sender report = .ok (after, trace)) :
    ∃ (increase : River.ReportIncrease) (maxIncrease : Nat)
      (applied : System) (rewarded : River),
      system.river.checkReport sender timestamp report = .ok increase ∧
      River.maxIncrease system.river.config.reportBounds system.river.assets
        increase.timeElapsedSinceLastReport = .ok maxIncrease ∧
      system.applyReport increase report = .ok applied ∧
      (∀ maxDecrease, River.maxDecrease system.river.config.reportBounds
        system.river.assets = .ok maxDecrease →
        system.river.assets - min maxDecrease system.river.assets ≤
          after.river.assets + sentSince system after) ∧
      (after.river.assets + sentSince system after < system.river.assets →
        ∃ maxDecrease, River.maxDecrease system.river.config.reportBounds
          system.river.assets = .ok maxDecrease) ∧
      after.river.assets + sentSince system after ≤
        system.river.assets + maxIncrease ∧
      trace.pulledELFees ≤
        system.river.assets + maxIncrease - applied.river.assets ∧
      trace.pulledRedeemManagerExceedingEthBuffer ≤
        system.river.assets + maxIncrease - applied.river.assets -
          trace.pulledELFees ∧
      trace.pulledCoverageFunds ≤
        system.river.assets + maxIncrease - applied.river.assets -
          trace.pulledELFees - trace.pulledRedeemManagerExceedingEthBuffer ∧
      trace.rewards =
        applied.river.assets - system.river.assets + trace.pulledELFees ∧
      (if trace.rewards > 0 then
          (applied.river.received trace.collected).onEarnings trace.rewards
        else pure (applied.river.received trace.collected)) = .ok rewarded ∧
      after.river.shares + burntSince system after = rewarded.shares := by
  have sound := Sound.of_reachable reachable
  obtain ⟨prepared, increase, preparing, finishing⟩ :=
    setConsensusLayerData_ok returned
  obtain ⟨stages⟩ := prepareReport_ok sound.registry preparing
  obtain ⟨assets, shares⟩ := finish_eq finishing
  have since : sentSince prepared after = sentSince system after ∧
      burntSince prepared after = burntSince system after := by
    simp only [sentSince, burntSince, RedeemManager.withdrawnTotal,
      RedeemManager.eventAmounts, stages.stack_eq, and_self]
  rw [since.1, stages.assets_eq] at assets
  rw [since.2] at shares
  have bounded := River.checkBounds_ok stages.bounds
  have within : trace.collected ≤ stages.available := stages.pulls.within
  have upper := bounded.available
  refine ⟨increase, _, system.applied increase report, _, stages.checking,
    bounded.increase, stages.applying, ?_, ?_, ?_, ?_, ?_, ?_, ?_,
    stages.earning, ?_⟩
  · intro maxDecrease found
    rw [assets, River.maxDecrease_ok found]
    exact bounded.lower.trans (Nat.le_add_right _ _)
  · intro loss
    exact ⟨_, bounded.decrease (by omega)⟩
  · rw [assets]
    omega
  · unfold ReportingTrace.collected at within
    omega
  · unfold ReportingTrace.collected at within
    omega
  · unfold ReportingTrace.collected at within
    omega
  · rw [stages.pulls.rewards, bounded.rewards]
  · have supply :=
      congrArg (fun state : System => state.river.shares) stages.prepared_eq
    exact shares.trans supply

/-- The fee recipient sends all a report of one day may add to 32 ether. -/
theorem report_bounds_sample :
    ∃ system after trace, sampleRun = .ok system ∧
      system.setConsensusLayerData sample (feesUpTo ether) 1000000
        (.ofNat 11) (quietReport 675 true) = .ok (after, trace) ∧
      system.river.assets = depositSize ∧
      trace.pulledELFees = 8767123287671232 ∧
      after.river.assets + sentSince system after ≤
        depositSize + 8767123287671232 := by
  have checked : returns sampleRun (fun system =>
      system.river.assets = depositSize ∧
      returns (system.river.checkReport (.ofNat 11) 1000000
        (quietReport 675 true)) (fun increase =>
          returns (River.maxIncrease system.river.config.reportBounds
            system.river.assets increase.timeElapsedSinceLastReport)
            fun maxIncrease => maxIncrease = 8767123287671232) ∧
      returns (system.setConsensusLayerData sample (feesUpTo ether) 1000000
        (.ofNat 11) (quietReport 675 true)) fun report =>
          report.2.pulledELFees = 8767123287671232) = true := by
    decide +kernel
  obtain ⟨system, returned, facts⟩ := returns_iff.mp checked
  obtain ⟨assets, limited, reported⟩ := of_decide_eq_true facts
  obtain ⟨found, checking, limited⟩ := returns_iff.mp limited
  obtain ⟨limit, limiting, limited⟩ := returns_iff.mp limited
  obtain ⟨⟨after, trace⟩, reporting, pulled⟩ := returns_iff.mp reported
  obtain ⟨increase, maxIncrease, applied, rewarded, same, increasing, -, -, -,
    upper, -⟩ := report_bounds (sampleRun_reachable returned) reporting
  obtain rfl := Except.ok.inj (checking.symm.trans same)
  obtain rfl := Except.ok.inj (limiting.symm.trans increasing)
  rw [assets, of_decide_eq_true limited] at upper
  exact ⟨system, after, trace, returned, reporting, assets,
    of_decide_eq_true pulled, upper⟩

end System

end RiverProtocol
