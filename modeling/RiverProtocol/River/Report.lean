import RiverProtocol.River.Steps

/-!
# What the parts of a report do to River

Pulled funds are received, a fee is minted, ether moves from the deposit to
the redeem balance and back, and whole deposits are committed.
-/

namespace RiverProtocol

open Checked Outcome Balances

/-- The maximal increase of a report, without overflow checks. -/
def ReportBounds.increase (rb : ReportBounds) (prevTotalEth timeElapsed : Nat) :
    Nat :=
  prevTotalEth * rb.annualAprUpperBound * timeElapsed /
    (basisPointsMax * River.oneYear)

/-- The maximal decrease of a report, without overflow checks. -/
def ReportBounds.decrease (rb : ReportBounds) (prevTotalEth : Nat) : Nat :=
  prevTotalEth * rb.relativeLowerBound / basisPointsMax

namespace River

variable {river after : River}

/-- The shares minted as a fee on `amount`. -/
def feeShares (river : River) (amount : Nat) : Nat :=
  amount * river.shares * river.config.globalFee.val /
    (river.assets * basisPointsMax - amount * river.config.globalFee.val)

/-- Ether moved from the deposit to the redeem balance. -/
def rebalanced (river : River) (amount : Nat) : River :=
  { river with
    balanceToRedeem := river.balanceToRedeem + amount
    balanceToDeposit := river.balanceToDeposit - amount }

/-- The redeem balance moved to the deposit balance. -/
def skimmed (river : River) : River :=
  { river with
    balanceToDeposit := river.balanceToDeposit + river.balanceToRedeem
    balanceToRedeem := 0 }

/-- Ether committed to `count` validators. -/
def committed (river : River) (count : Nat) : River :=
  { river with
    committedBalance := river.committedBalance + depositSize * count
    balanceToDeposit := river.balanceToDeposit - depositSize * count }

/-- The values of a report stored, after its ether was pulled. -/
def reported (river : River) (skimmedEth exitedEth : Nat)
    (report : StoredConsensusLayerReport) : River :=
  { river with
    balance := river.balance + (skimmedEth + exitedEth)
    balanceToDeposit := river.balanceToDeposit + skimmedEth
    balanceToRedeem := river.balanceToRedeem + exitedEth
    lastConsensusLayerReport := report }

/-- The withdrawal step: ether leaves and the redeem manager's shares are
burnt. -/
def withdrawn (river : River) (owner : Address) (amount eth : Nat) : River :=
  { river with
    balance := river.balance - eth
    balanceToRedeem := river.balanceToRedeem - eth
    shares := river.shares - amount
    sharesPerOwner := debit river.sharesPerOwner owner amount }

theorem received_received (first second : Nat) :
    (river.received first).received second =
      river.received (first + second) := by
  simp only [received, Nat.add_assoc]

theorem minted_zero (owner : Address) : river.minted owner 0 = river := by
  simp [minted, Balances.credit]

theorem rebalanced_assets {amount : Nat}
    (held : amount ≤ river.balanceToDeposit) :
    (river.rebalanced amount).assets = river.assets := by
  unfold assets
  apply congrArg (· + _)
  simp only [rebalanced]
  omega

@[simp] theorem skimmed_assets : river.skimmed.assets = river.assets := by
  unfold assets
  apply congrArg (· + _)
  simp only [skimmed]
  omega

theorem committed_assets {count : Nat}
    (held : depositSize * count ≤ river.balanceToDeposit) :
    (river.committed count).assets = river.assets := by
  unfold assets committed
  apply congrArg (· + _)
  generalize depositSize * count = amount at held ⊢
  dsimp only
  omega

theorem withdrawn_assets {owner : Address} {amount eth : Nat}
    (held : eth ≤ river.balanceToRedeem) :
    (river.withdrawn owner amount eth).assets + eth = river.assets := by
  unfold assets
  rw [Nat.add_right_comm]
  apply congrArg (· + _)
  simp only [withdrawn]
  omega

theorem maxIncrease_ok {rb : ReportBounds} {prevTotalEth timeElapsed value :
    Nat} (returned : maxIncrease rb prevTotalEth timeElapsed = .ok value) :
    value = rb.increase prevTotalEth timeElapsed := by
  simp only [maxIncrease, bind_eq_ok, umul_eq_ok, udiv_eq_ok] at returned
  obtain ⟨first, ⟨-, rfl⟩, second, ⟨-, rfl⟩, -, rfl⟩ := returned
  rfl

theorem maxDecrease_ok {rb : ReportBounds} {prevTotalEth value : Nat}
    (returned : maxDecrease rb prevTotalEth = .ok value) :
    value = rb.decrease prevTotalEth := by
  simp only [maxDecrease, bind_eq_ok, umul_eq_ok, udiv_eq_ok] at returned
  obtain ⟨first, ⟨-, rfl⟩, -, rfl⟩ := returned
  rfl

/-- The bounds a report is held to, and what it may still pull. -/
structure Bounded (rb : ReportBounds)
    (timeElapsed preReport postReport rewards available : Nat) : Prop where
  increase : maxIncrease rb preReport timeElapsed =
    .ok (rb.increase preReport timeElapsed)
  decrease : postReport < preReport →
    maxDecrease rb preReport = .ok (rb.decrease preReport)
  lower : preReport - min (rb.decrease preReport) preReport ≤ postReport
  rewards : rewards = postReport - preReport
  available : postReport + available =
    preReport + rb.increase preReport timeElapsed

theorem checkBounds_ok {rb : ReportBounds}
    {timeElapsed preReport postReport rewards available : Nat}
    (returned : checkBounds rb timeElapsed preReport postReport =
      .ok (rewards, available)) :
    Bounded rb timeElapsed preReport postReport rewards available := by
  simp only [checkBounds, bind_eq_ok] at returned
  obtain ⟨increase, found, returned⟩ := returned
  have increaseEq := maxIncrease_ok found
  subst increaseEq
  split at returned
  · rename_i grown
    simp only [bind_eq_ok, uadd_eq_ok, require_eq_ok, usub_eq_ok, pure_eq_ok,
      Prod.mk.injEq] at returned
    obtain ⟨upper, ⟨-, rfl⟩, -, bounded, earned, ⟨-, rfl⟩, open_,
      ⟨within, rfl⟩, rfl, rfl⟩ := returned
    exact ⟨found, fun shrunk => absurd grown (Nat.not_le.mpr shrunk),
      by omega, rfl, by omega⟩
  · simp only [bind_eq_ok, usub_eq_ok, require_eq_ok, uadd_eq_ok, pure_eq_ok,
      Prod.mk.injEq, LibUint256.min_eq] at returned
    obtain ⟨decrease, decreased, lower, ⟨-, rfl⟩, -, bounded, loss,
      ⟨shrunk, rfl⟩, open_, ⟨-, rfl⟩, rfl, rfl⟩ := returned
    have decreaseEq := maxDecrease_ok decreased
    subst decreaseEq
    exact ⟨found, fun _ => decreased, bounded, by omega, by omega⟩

/-- What a report must satisfy before its values are used. -/
structure Checked (river : River) (sender : Address) (timestamp : Nat)
    (report : ConsensusLayerReport) (increase : ReportIncrease) : Prop where
  oracle : sender = river.config.oracle
  epoch : river.isValidEpoch timestamp report.epoch = .ok true
  exited : river.lastConsensusLayerReport.validatorsExitedBalance +
    increase.exitedAmountIncrease = report.validatorsExitedBalance
  skimmed : river.lastConsensusLayerReport.validatorsSkimmedBalance +
    increase.skimmedAmountIncrease = report.validatorsSkimmedBalance
  deposited : report.validatorsCount ≤ river.depositedValidatorCount
  activated : river.lastConsensusLayerReport.validatorsCount ≤
    report.validatorsCount
  elapsed : timeBetweenEpochs river.config.clSpec
    river.lastConsensusLayerReport.epoch report.epoch =
      .ok increase.timeElapsedSinceLastReport

theorem checkReport_ok {sender : Address} {timestamp : Nat}
    {report : ConsensusLayerReport} {increase : ReportIncrease}
    (returned : river.checkReport sender timestamp report = .ok increase) :
    Checked river sender timestamp report increase := by
  simp only [checkReport, bind_eq_ok, require_eq_ok, usub_eq_ok, pure_eq_ok]
    at returned
  obtain ⟨-, oracle, valid, epoch, -, isValid, -, -, exited, ⟨exitedLe, rfl⟩,
    -, -, -, ⟨deposited, activated⟩, skimmed, ⟨skimmedLe, rfl⟩, elapsed,
    elapsedEq, rfl⟩ := returned
  rw [isValid] at epoch
  exact ⟨oracle, epoch, Nat.add_sub_cancel' exitedLe,
    Nat.add_sub_cancel' skimmedLe, deposited, activated, elapsedEq⟩

theorem collectToDeposit_ok {sent collected : Nat}
    (returned : river.collectToDeposit sent = .ok (after, collected)) :
    collected = sent ∧ after = river.received sent := by
  simp only [collectToDeposit, bind_eq_ok, uadd_eq_ok, usub_eq_ok,
    pure_eq_ok, Prod.mk.injEq] at returned
  obtain ⟨balance, ⟨-, rfl⟩, amount, ⟨-, rfl⟩, toDeposit, booked, rfl, rfl⟩ :=
    returned
  rw [Nat.add_sub_cancel_left] at booked ⊢
  refine ⟨rfl, ?_⟩
  split at booked
  · rw [uadd_eq_ok] at booked
    rw [received, ← booked.2]
  · rename_i nothing
    have zero : sent = 0 := by omega
    rw [pure_eq_ok] at booked
    rw [received, ← booked, zero, Nat.add_zero, Nat.add_zero]

theorem onEarnings_ok {amount : Nat}
    (returned : river.onEarnings amount = .ok after) :
    amount * river.config.globalFee.val ≤ river.assets * basisPointsMax ∧
      after = river.minted river.config.collector (river.feeShares amount) := by
  simp only [onEarnings, bind_eq_ok, require_eq_ok, umul_eq_ok, usub_eq_ok]
    at returned
  obtain ⟨-, supplied, assets, found, product, ⟨-, rfl⟩, numerator, ⟨-, rfl⟩,
    scaled, ⟨-, rfl⟩, fee, ⟨-, rfl⟩, denominator, ⟨enough, rfl⟩, shares,
    minting, returned⟩ := returned
  have same := assetBalance_ok found
  subst same
  have sharesEq : shares = river.feeShares amount := by
    split at minting
    · rename_i none
      rw [pure_eq_ok] at minting
      rw [feeShares, none, Nat.div_zero]
      exact minting.symm
    · rw [udiv_eq_ok] at minting
      exact minting.2.symm
  subst sharesEq
  refine ⟨enough, ?_⟩
  split at returned
  · simp only [bind_eq_ok, usub_eq_ok, pure_eq_ok] at returned
    obtain ⟨next, raw, old, -, rfl⟩ := returned
    exact mintRawShares_ok raw
  · rename_i nothing
    have zero : river.feeShares amount = 0 := by omega
    rw [pure_eq_ok] at returned
    rw [zero, minted_zero, returned]

/-- No rewards mint no shares. -/
theorem earned_ok {rewards : Nat}
    (returned : (if rewards > 0 then river.onEarnings rewards
      else pure river) = .ok after) :
    rewards * river.config.globalFee.val ≤ river.assets * basisPointsMax ∧
      after = river.minted river.config.collector
        (river.feeShares rewards) := by
  split at returned
  · exact onEarnings_ok returned
  · rename_i none
    rw [pure_eq_ok] at returned
    rw [Nat.eq_zero_of_not_pos none, feeShares, Nat.zero_mul, Nat.zero_mul,
      Nat.zero_mul, Nat.zero_div, minted_zero]
    exact ⟨Nat.zero_le _, returned.symm⟩

theorem rebalance_ok {demand exitingBalance : Nat} {allowed : Bool}
    (returned : river.rebalance demand exitingBalance allowed = .ok after) :
    ∃ amount, amount ≤ river.balanceToDeposit ∧
      after = river.rebalanced amount := by
  unfold rebalance at returned
  split at returned
  · simp only [bind_eq_ok, usub_eq_ok, LibUint256.min_eq] at returned
    obtain ⟨missing, ⟨-, rfl⟩, rest, ⟨-, rfl⟩, returned⟩ := returned
    split at returned
    · simp only [bind_eq_ok, uadd_eq_ok, usub_eq_ok, pure_eq_ok] at returned
      obtain ⟨toRedeem, ⟨-, rfl⟩, toDeposit, ⟨held, rfl⟩, rfl⟩ := returned
      exact ⟨_, held, rfl⟩
    · rw [pure_eq_ok] at returned
      exact ⟨0, Nat.zero_le _, returned.symm⟩
  · rw [pure_eq_ok] at returned
    exact ⟨0, Nat.zero_le _, returned.symm⟩

theorem skimExcessBalanceToRedeem_ok
    (returned : river.skimExcessBalanceToRedeem = .ok after) :
    after = river.skimmed := by
  unfold skimExcessBalanceToRedeem at returned
  split at returned
  · simp only [bind_eq_ok, uadd_eq_ok, pure_eq_ok] at returned
    obtain ⟨toDeposit, ⟨-, rfl⟩, rfl⟩ := returned
    rfl
  · rename_i nothing
    have zero : river.balanceToRedeem = 0 := by omega
    rw [pure_eq_ok] at returned
    rw [← returned, skimmed, zero, Nat.add_zero]
    cases river
    simp only at zero
    rw [zero]

theorem commitBalanceToDeposit_ok {period : Nat} {contained : Bool}
    (returned : river.commitBalanceToDeposit period contained = .ok after) :
    ∃ count, depositSize * count ≤ river.balanceToDeposit ∧
      after = river.committed count := by
  unfold commitBalanceToDeposit at returned
  split at returned
  · rw [pure_eq_ok] at returned
    refine ⟨0, by simp, ?_⟩
    rw [← returned, committed, Nat.mul_zero, Nat.add_zero, Nat.sub_zero]
  · simp only [bind_eq_ok, usub_eq_ok, umul_eq_ok, udiv_eq_ok] at returned
    obtain ⟨assets, -, activated, -, product, -, relative, -, scaled, -,
      perPeriod, -, validators, ⟨-, rfl⟩, amount, ⟨-, rfl⟩, returned⟩ :=
      returned
    split at returned
    · simp only [bind_eq_ok, uadd_eq_ok, usub_eq_ok, pure_eq_ok] at returned
      obtain ⟨grown, ⟨-, rfl⟩, toDeposit, ⟨held, rfl⟩, rfl⟩ := returned
      rw [Nat.mul_comm] at held ⊢
      exact ⟨_, held, rfl⟩
    · rw [pure_eq_ok] at returned
      refine ⟨0, by simp, ?_⟩
      rw [← returned, committed, Nat.mul_zero, Nat.add_zero, Nat.sub_zero]

end River

end RiverProtocol
