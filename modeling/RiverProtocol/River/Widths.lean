import RiverProtocol.River.Progress

/-!
# The parts of a report within widths

When sums and products of a report stay below their width.  Amounts of ether
and shares are taken below `2 ^ 112`, so that the product of two of them and a
fee is still a word.
-/

namespace RiverProtocol

open Checked Outcome

/-- A bound on amounts of ether and shares. -/
def amountLimit : Nat := 2 ^ 112

/-- Settings with rates and durations of 64 bits, and a fee of at most one
half. -/
structure RiverConfig.Moderate (config : RiverConfig) : Prop where
  half : 2 * config.globalFee.val ≤ basisPointsMax
  epoch : config.clSpec.secondsPerSlot * config.clSpec.slotsPerEpoch <
    uint64Limit
  increase : config.reportBounds.annualAprUpperBound < uint64Limit
  decrease : config.reportBounds.relativeLowerBound < uint64Limit
  daily : config.dailyCommittableLimits.minDailyNetCommittableAmount <
    amountLimit
  relative : config.dailyCommittableLimits.maxDailyRelativeCommittableAmount <
    uint64Limit

theorem mul_lt_pow {left right first second : Nat} (bounded : left < 2 ^ first)
    (other : right < 2 ^ second) : left * right < 2 ^ (first + second) := by
  rw [Nat.pow_add]
  exact Nat.mul_lt_mul'' bounded other

theorem mul_lt_word {left right first second : Nat} (bounded : left < 2 ^ first)
    (other : right < 2 ^ second) (within : first + second ≤ 256) :
    left * right < wordLimit :=
  (mul_lt_pow bounded other).trans_le
    (Nat.pow_le_pow_right (by decide) within)

theorem LibUint256.max_lt {left right limit : Nat} (first : left < limit)
    (second : right < limit) : LibUint256.max left right < limit := by
  unfold LibUint256.max
  split
  · exact second
  · exact first

theorem LibUint256.fits_ceil {left right : Nat} (below : left + 1 < wordLimit) :
    Fits (LibUint256.ceil left right) := by
  refine .bind fits_udiv fun quotient divided => ?_
  obtain ⟨-, rfl⟩ := udiv_eq_ok.mp divided
  refine .bind fits_umod fun remainder _ => fits_uadd ?_
  have smaller := Nat.div_le_self left right
  split
  · omega
  · omega

namespace River

variable {river : River}

theorem fits_assetBalance (small : river.assets < wordLimit) :
    Fits river.assetBalance := by
  have ends : Ends (fun failure => failure ≠ .panic .overflow) _
      river.assetBalance :=
    ends_assetBalance fun large => absurd large (Nat.not_le.mpr small)
  exact ends.mono fun _ _ => trivial

theorem fits_balanceFromShares {amount : Nat}
    (small : river.assets < wordLimit)
    (product : amount * river.assets < wordLimit) :
    Fits (river.balanceFromShares amount) := by
  unfold balanceFromShares
  split
  · exact .pure _
  · refine .bind (fits_assetBalance small) fun assets valued => ?_
    obtain rfl := assetBalance_ok valued
    exact .bind (fits_umul product) fun _ _ => fits_udiv

theorem fits_sharesFromBalance {value : Nat}
    (small : river.assets < wordLimit)
    (product : value * river.shares < wordLimit) :
    Fits (river.sharesFromBalance value) := by
  refine .bind (fits_assetBalance small) fun assets _ => ?_
  split
  · exact .pure _
  · exact .bind (fits_umul product) fun _ _ => fits_udiv

theorem fits_mintRawShares {owner : Address} {value : Nat}
    (owned : river.sharesPerOwner owner ≤ river.shares)
    (small : river.shares + value < wordLimit) :
    Fits (river.mintRawShares owner value) :=
  .bind (fits_uadd small) fun _ _ =>
    .bind (fits_uadd (by omega)) fun _ _ => .pure _

theorem fits_burnRawShares {owner : Address} {value : Nat} :
    Fits (river.burnRawShares owner value) :=
  .bind fits_usub fun _ _ => .bind fits_usub fun _ _ => .pure _

theorem fits_collectToDeposit {sent : Nat}
    (held : river.balanceToDeposit ≤ river.balance)
    (small : river.balance + sent < wordLimit) :
    Fits (river.collectToDeposit sent) := by
  refine .next (uadd_of_lt small) ?_
  refine .difference ?_
  refine .bind ?_ fun _ _ => .pure _
  split
  · exact fits_uadd (by omega)
  · exact .pure _

theorem fits_timeBetweenEpochs {cls : CLSpec} {epochPast epochNow : Nat}
    (epoch : cls.secondsPerSlot * cls.slotsPerEpoch < uint64Limit)
    (elapsed : elapsedSeconds cls epochPast epochNow < wordLimit) :
    Fits (timeBetweenEpochs cls epochPast epochNow) := by
  refine .difference ?_
  refine .bind (fits_umul64 epoch) fun seconds multiplied => ?_
  obtain ⟨-, rfl⟩ := umul64_eq_ok.mp multiplied
  exact fits_umul elapsed

theorem fits_checkReport {sender : Address} {timestamp : Nat}
    {report : ConsensusLayerReport}
    (valid : river.isValidEpoch timestamp report.epoch = .ok true)
    (settings : river.config.Moderate)
    (elapsed : elapsedSeconds river.config.clSpec
      river.lastConsensusLayerReport.epoch report.epoch < wordLimit) :
    Fits (river.checkReport sender timestamp report) := by
  refine .bind (.require (by simp)) fun _ _ => ?_
  refine .bind (.of_ok valid) fun _ _ => ?_
  refine .bind (.require (by simp)) fun _ _ => ?_
  refine .bind (.require (by simp)) fun _ _ => ?_
  refine .bind fits_usub fun _ _ => ?_
  refine .bind (.require (by simp)) fun _ _ => ?_
  refine .bind (.require (by simp)) fun _ _ => ?_
  refine .bind fits_usub fun _ _ => ?_
  exact .bind (fits_timeBetweenEpochs settings.epoch elapsed) fun _ _ =>
    .pure _

theorem fits_maxIncrease {rb : ReportBounds} {prevTotalEth timeElapsed : Nat}
    (previous : prevTotalEth < amountLimit)
    (rate : rb.annualAprUpperBound < uint64Limit)
    (elapsed : timeElapsed < uint64Limit) :
    Fits (maxIncrease rb prevTotalEth timeElapsed) := by
  have yearly : prevTotalEth * rb.annualAprUpperBound < 2 ^ (112 + 64) :=
    mul_lt_pow previous rate
  refine .next (umul_of_lt (yearly.trans (by decide))) ?_
  exact .bind (fits_umul (mul_lt_word yearly elapsed (by decide))) fun _ _ =>
    fits_udiv

theorem fits_maxDecrease {rb : ReportBounds} {prevTotalEth : Nat}
    (previous : prevTotalEth < amountLimit)
    (rate : rb.relativeLowerBound < uint64Limit) :
    Fits (maxDecrease rb prevTotalEth) :=
  .bind (fits_umul (mul_lt_word previous rate (by decide))) fun _ _ =>
    fits_udiv

theorem fits_checkBounds {rb : ReportBounds}
    {timeElapsed preReport postReport : Nat}
    (upper : preReport + rb.increase preReport timeElapsed < amountLimit)
    (increase : rb.annualAprUpperBound < uint64Limit)
    (decrease : rb.relativeLowerBound < uint64Limit)
    (elapsed : timeElapsed < uint64Limit) :
    Fits (checkBounds rb timeElapsed preReport postReport) := by
  have previous : preReport < amountLimit := by omega
  have small : amountLimit < wordLimit := by decide
  refine .bind (fits_maxIncrease previous increase elapsed)
    fun maxIncrease found => ?_
  obtain rfl := maxIncrease_ok found
  split
  · refine .bind (fits_uadd (upper.trans small)) fun _ _ => ?_
    refine .bind (.require (by simp)) fun _ _ => ?_
    exact .bind fits_usub fun _ _ => .bind fits_usub fun _ _ => .pure _
  · refine .bind (fits_maxDecrease previous decrease) fun _ _ => ?_
    refine .bind fits_usub fun _ _ => ?_
    refine .bind (.require (by simp)) fun _ _ => ?_
    refine .difference ?_
    exact .bind (fits_uadd (by omega)) fun _ _ => .pure _

theorem feeShares_le {amount : Nat} (earned : amount ≤ river.assets)
    (half : 2 * river.config.globalFee.val ≤ basisPointsMax) :
    river.feeShares amount ≤ river.shares := by
  have taken : amount * river.config.globalFee.val * 2 ≤
      river.assets * basisPointsMax := by
    rw [Nat.mul_assoc, Nat.mul_comm _ 2]
    exact Nat.mul_le_mul earned half
  unfold feeShares
  apply Nat.div_le_of_le_mul
  rw [Nat.mul_right_comm]
  exact Nat.mul_le_mul_right _ (by omega)

theorem fits_onEarnings {amount : Nat}
    (owned : ∀ owner, river.sharesPerOwner owner ≤ river.shares)
    (earned : amount ≤ river.assets) (assets : river.assets < amountLimit)
    (shares : river.shares < amountLimit)
    (settings : river.config.Moderate) :
    Fits (river.onEarnings amount) := by
  have small : amountLimit < wordLimit := by decide
  have fee : river.config.globalFee.val < 2 ^ 14 :=
    Nat.lt_of_le_of_lt river.config.globalFee.property (by decide)
  have shared : amount * river.shares < 2 ^ (112 + 112) :=
    mul_lt_pow (earned.trans_lt assets) shares
  refine .bind (.require (by simp)) fun _ _ => ?_
  refine .bind (fits_assetBalance (assets.trans small))
    fun balance valued => ?_
  obtain rfl := assetBalance_ok valued
  refine .next (umul_of_lt (shared.trans (by decide))) ?_
  refine .next (umul_of_lt (mul_lt_word shared fee (by decide))) ?_
  refine .next (umul_of_lt (mul_lt_word assets
    (show basisPointsMax < 2 ^ 14 by decide) (by decide))) ?_
  refine .next (umul_of_lt (mul_lt_word (earned.trans_lt assets) fee
    (by decide))) ?_
  refine .difference ?_
  refine .bind ?_ fun minted minting => ?_
  · split
    · exact .pure _
    · exact fits_udiv
  have few : minted ≤ river.shares := by
    have limit := feeShares_le earned settings.half
    split at minting
    · rw [pure_eq_ok] at minting
      omega
    · obtain ⟨-, rfl⟩ := udiv_eq_ok.mp minting
      exact limit
  split
  · have double : 2 * amountLimit < wordLimit := by decide
    exact .bind (fits_mintRawShares (owned _) (by omega)) fun _ _ =>
      .bind fits_usub fun _ _ => .pure _
  · exact .pure _

theorem balances_le_assets :
    river.balanceToDeposit + river.committedBalance + river.balanceToRedeem ≤
      river.assets := by
  unfold assets
  generalize (river.depositedValidatorCount -
    river.lastConsensusLayerReport.validatorsCount) * depositSize = pending
  omega

theorem fits_rebalance {demand exitingBalance : Nat} {allowed : Bool}
    (small : river.assets < wordLimit) :
    Fits (river.rebalance demand exitingBalance allowed) := by
  have held := river.balances_le_assets
  unfold rebalance
  split
  · refine .bind fits_usub fun _ _ => ?_
    refine .bind fits_usub fun missing _ => ?_
    rw [LibUint256.min_eq]
    have within := Nat.min_le_left river.balanceToDeposit missing
    dsimp only
    split
    · refine .bind (fits_uadd (by omega)) fun _ _ => ?_
      exact .bind fits_usub fun _ _ => .pure _
    · exact .pure _
  · exact .pure _

theorem fits_skimExcessBalanceToRedeem (small : river.assets < wordLimit) :
    Fits river.skimExcessBalanceToRedeem := by
  have held := river.balances_le_assets
  unfold skimExcessBalanceToRedeem
  split
  · exact .bind (fits_uadd (by omega)) fun _ _ => .pure _
  · exact .pure _

theorem fits_commitBalanceToDeposit {period : Nat} {contained : Bool}
    (assets : river.assets < amountLimit) (elapsed : period < uint64Limit)
    (settings : river.config.Moderate) :
    Fits (river.commitBalanceToDeposit period contained) := by
  have held := river.balances_le_assets
  have small : amountLimit < wordLimit := by decide
  unfold commitBalanceToDeposit
  split
  · exact .pure _
  · refine .bind (fits_assetBalance (assets.trans small))
      fun balance valued => ?_
    obtain rfl := assetBalance_ok valued
    refine .difference ?_
    have scaled := mul_lt_pow settings.relative
      ((Nat.sub_le river.assets river.balanceToDeposit).trans_lt assets)
    refine .next (umul_of_lt (scaled.trans (by decide))) ?_
    refine .bind fits_udiv fun share divided => ?_
    obtain ⟨-, rfl⟩ := udiv_eq_ok.mp divided
    have daily := LibUint256.max_lt (settings.daily.trans (by decide))
      ((Nat.div_le_self _ basisPointsMax).trans_lt scaled)
    refine .bind (fits_umul (mul_lt_word daily elapsed (by decide)))
      fun _ _ => ?_
    refine .bind fits_udiv fun perPeriod _ => ?_
    rw [LibUint256.min_eq]
    refine .bind fits_udiv fun validators divided => ?_
    obtain ⟨-, rfl⟩ := udiv_eq_ok.mp divided
    have few : min perPeriod river.balanceToDeposit / depositSize *
        depositSize ≤ river.balanceToDeposit :=
      (Nat.div_mul_le_self _ _).trans (Nat.min_le_right _ _)
    refine .next (umul_of_lt (by omega)) ?_
    split
    · exact .bind (fits_uadd (by omega)) fun _ _ =>
        .bind fits_usub fun _ _ => .pure _
    · exact .pure _

end River

end RiverProtocol
