import RiverProtocol.System.Books

/-!
# Redeemers come before deposits

Ether goes back from the redeem to the deposit balance only where the demand
that is left after the withdrawal step is worth nothing.  Where it is worth a
wei, the whole redeem balance went to the redeem manager.
-/

namespace RiverProtocol

open Checked Outcome

namespace System

variable {deployment : Deployment} {system after : System}

/-- After a withdrawal either no demand or no redeem balance is left. -/
theorem Withdrawal.exhausts {amount eth : Nat}
    (withdrawal : Withdrawal deployment system amount eth after) :
    after.redeemManager.redeemDemand = 0 ∨
      (eth = system.river.balanceToRedeem ∧
        after.river.balanceToRedeem = 0) := by
  obtain ⟨-, -, height, -, manager⟩ :=
    RedeemManager.reportWithdraw_ok withdrawal.reported
  rcases suppliedDemand_ok withdrawal.supplied with
    ⟨-, whole, -⟩ | ⟨-, -, whole⟩
  · left
    rw [manager, whole]
    exact Nat.sub_self _
  · right
    refine ⟨whole, ?_⟩
    rw [withdrawal.after_eq, whole]
    exact Nat.sub_self _

theorem Withdrawal.balance_eq {amount eth : Nat}
    (withdrawal : Withdrawal deployment system amount eth after) :
    after.redeemManager.balance = system.redeemManager.balance + eth := by
  obtain ⟨-, -, height, -, manager⟩ :=
    RedeemManager.reportWithdraw_ok withdrawal.reported
  rw [manager]

/-- The withdrawal step leaves a demand that is worth nothing, or no redeem
balance. -/
theorem withdrawing_exhausts
    (returned : system.reportWithdrawToRedeemManager deployment =
      .ok after) :
    after.river.balanceFromShares after.redeemManager.redeemDemand = .ok 0 ∨
      (after.redeemManager.balance =
          system.redeemManager.balance + system.river.balanceToRedeem ∧
        after.river.balanceToRedeem = 0) := by
  have valued : system.river.assets < wordLimit := by
    simp only [reportWithdrawToRedeemManager, bind_eq_ok] at returned
    obtain ⟨assets, valued, -⟩ := returned
    rw [River.assetBalance_eq] at valued
    exact (guarded_eq_ok.mp valued).1
  rcases reportWithdrawToRedeemManager_ok returned with
    ⟨rfl, none | none | ⟨amount, supplied⟩⟩ | ⟨amount, eth, withdrawal⟩
  · left
    rw [River.balanceFromShares_of_fits valued
        (by rw [none, Nat.mul_zero]; decide),
      Rate.Pool.worth, River.pool, none, Nat.mul_zero, Nat.zero_div]
  · left
    rw [River.balanceFromShares, if_pos none]
    rfl
  · simp only [suppliedDemand, bind_eq_ok] at supplied
    obtain ⟨inEth, worth, supplied⟩ := supplied
    split at supplied
    · simp only [bind_eq_ok, pure_eq_ok, Prod.mk.injEq] at supplied
      obtain ⟨shares, -, -, empty⟩ := supplied
      right
      rw [empty]
      exact ⟨rfl, rfl⟩
    · simp only [pure_eq_ok, Prod.mk.injEq] at supplied
      left
      rw [worth, supplied.2]
  · rcases withdrawal.exhausts with served | ⟨whole, empty⟩
    · left
      have paid : after.river.assets + eth = system.river.assets := by
        rw [withdrawal.after_eq]
        exact River.withdrawn_assets withdrawal.eth_le
      rw [served, River.balanceFromShares_of_fits (by omega)
        (by rw [Nat.zero_mul]; decide), Rate.Pool.worth, Nat.zero_mul,
        Nat.zero_div]
    · right
      exact ⟨whole ▸ withdrawal.balance_eq, empty⟩

section Report

variable {funds : ExternalFunds} {timestamp : Nat} {sender : Address}
  {report : ConsensusLayerReport} {trace : ReportingTrace}

/-- In an accepted report ether is skimmed to the deposit balance only where
the demand left by the withdrawal step is worth nothing, and where it is worth
a wei the whole redeem balance was sent to the redeem manager. -/
theorem redeemers_before_deposits
    (returned : system.setConsensusLayerData deployment funds timestamp
      sender report = .ok (after, trace)) :
    ∃ (increase : River.ReportIncrease) (prepared withdrawn : System)
      (skimmed committed : River),
      system.prepareReport funds timestamp sender report =
        .ok (prepared, increase, trace) ∧
      prepared.reportWithdrawToRedeemManager deployment = .ok withdrawn ∧
      withdrawn.river.skimExcessBalanceToRedeem = .ok skimmed ∧
      skimmed.commitBalanceToDeposit increase.timeElapsedSinceLastReport
        report.slashingContainmentMode = .ok committed ∧
      after = { withdrawn with river := committed } ∧
      (withdrawn.river.balanceToDeposit < skimmed.balanceToDeposit →
        withdrawn.river.balanceFromShares
          withdrawn.redeemManager.redeemDemand = .ok 0) ∧
      (withdrawn.river.balanceFromShares
          withdrawn.redeemManager.redeemDemand ≠ .ok 0 →
        withdrawn.redeemManager.balance =
            prepared.redeemManager.balance + prepared.river.balanceToRedeem ∧
          withdrawn.river.balanceToRedeem = 0 ∧
          skimmed = withdrawn.river) := by
  obtain ⟨prepared, increase, preparing, finishing⟩ :=
    setConsensusLayerData_ok returned
  simp only [finishReport, bind_eq_ok, pure_eq_ok] at finishing
  obtain ⟨withdrawn, withdrawing, skimmed, skimming, committed, committing,
    rfl⟩ := finishing
  obtain rfl := River.skimExcessBalanceToRedeem_ok skimming
  refine ⟨increase, prepared, withdrawn, _, committed, preparing, withdrawing,
    skimming, committing, rfl, ?_, ?_⟩
  · intro moved
    rcases withdrawing_exhausts withdrawing with worthless | ⟨-, empty⟩
    · exact worthless
    · simp only [River.skimmed] at moved
      omega
  · intro valued
    rcases withdrawing_exhausts withdrawing with worthless | ⟨sent, empty⟩
    · exact absurd worthless valued
    · refine ⟨sent, empty, ?_⟩
      rw [River.skimExcessBalanceToRedeem, empty] at skimming
      exact (pure_eq_ok.mp skimming).symm

end Report

/-- One wei of fees goes to the redeem manager while the sample demand lasts. -/
theorem redeemers_before_deposits_sample :
    ∃ (system prepared withdrawn : System) (increase : River.ReportIncrease)
      (trace : ReportingTrace),
      sampleRun = .ok system ∧
      system.prepareReport (feesUpTo 1) 1000000 (.ofNat 11)
        (quietReport 675 true) = .ok (prepared, increase, trace) ∧
      prepared.reportWithdrawToRedeemManager sample = .ok withdrawn ∧
      withdrawn.redeemManager.balance = prepared.redeemManager.balance + 1 ∧
      withdrawn.river.balanceToRedeem = 0 := by
  have checked : returns sampleRun (fun system =>
      returns (system.setConsensusLayerData sample (feesUpTo 1) 1000000
        (.ofNat 11) (quietReport 675 true)) (fun _ => true) &&
      returns (system.prepareReport (feesUpTo 1) 1000000 (.ofNat 11)
        (quietReport 675 true)) (fun step =>
        decide (step.1.river.balanceToRedeem = 1) &&
        returns (step.1.reportWithdrawToRedeemManager sample)
          (fun withdrawn => decide (withdrawn.river.balanceFromShares
            withdrawn.redeemManager.redeemDemand ≠ .ok 0)))) = true := by
    decide +kernel
  obtain ⟨system, returned, facts⟩ := returns_iff.mp checked
  obtain ⟨reporting, preparing⟩ := Bool.and_eq_true_iff.mp facts
  obtain ⟨⟨after, trace⟩, reported, -⟩ := returns_iff.mp reporting
  obtain ⟨increase, prepared, withdrawn, skimmed, committed, prepares,
    withdraws, -, -, -, -, served⟩ := redeemers_before_deposits reported
  obtain ⟨step, stepping, facts⟩ := returns_iff.mp preparing
  obtain rfl := Except.ok.inj (prepares.symm.trans stepping)
  obtain ⟨funds, withdrawing⟩ := Bool.and_eq_true_iff.mp facts
  obtain ⟨left, leaving, unserved⟩ := returns_iff.mp withdrawing
  obtain rfl := Except.ok.inj (withdraws.symm.trans leaving)
  obtain ⟨sent, empty, -⟩ := served (of_decide_eq_true unserved)
  rw [of_decide_eq_true funds] at sent
  exact ⟨system, prepared, withdrawn, increase, trace, returned, prepares,
    withdraws, sent, empty⟩

end System

end RiverProtocol
