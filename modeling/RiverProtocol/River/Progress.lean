import RiverProtocol.River.Invariants

/-!
# Why the parts of a report complete

No checked difference and no division of a report fails; only a sum or a
product past its width can stop it.
-/

namespace RiverProtocol

open Checked Outcome

namespace River

variable {river : River}

theorem completes_assetBalance : Completes river.assetBalance := by
  have ends : Ends (fun failure => failure = .panic .overflow) _
      river.assetBalance := ends_assetBalance fun _ => rfl
  exact ends.mono fun _ _ => trivial

theorem completes_balanceFromShares {amount : Nat} :
    Completes (river.balanceFromShares amount) := by
  unfold balanceFromShares
  split
  · exact .pure _
  · rename_i supplied
    refine .bind completes_assetBalance fun assets _ => ?_
    exact .bind completes_umul fun product _ => completes_udiv supplied

theorem completes_sharesFromBalance {value : Nat} :
    Completes (river.sharesFromBalance value) := by
  refine .bind completes_assetBalance fun assets _ => ?_
  split
  · exact .pure _
  · rename_i positive
    exact .bind completes_umul fun product _ => completes_udiv positive

theorem completes_mintRawShares {owner : Address} {value : Nat} :
    Completes (river.mintRawShares owner value) :=
  .bind completes_uadd fun _ _ => .bind completes_uadd fun _ _ => .pure _

theorem completes_collectToDeposit {sent : Nat} :
    Completes (river.collectToDeposit sent) := by
  refine .bind completes_uadd fun balance added => ?_
  obtain ⟨-, rfl⟩ := uadd_eq_ok.mp added
  refine .bind (completes_usub (Nat.le_add_right _ _)) fun collected _ => ?_
  refine .bind ?_ fun _ _ => .pure _
  split
  · exact completes_uadd
  · exact .pure _

/-- The seconds between two epochs, without overflow checks. -/
def elapsedSeconds (cls : CLSpec) (epochPast epochNow : Nat) : Nat :=
  (epochNow - epochPast) * (cls.secondsPerSlot * cls.slotsPerEpoch)

theorem timeBetweenEpochs_ok {cls : CLSpec} {epochPast epochNow value : Nat}
    (returned : timeBetweenEpochs cls epochPast epochNow = .ok value) :
    value = elapsedSeconds cls epochPast epochNow := by
  simp only [timeBetweenEpochs, bind_eq_ok, usub_eq_ok, umul64_eq_ok,
    umul_eq_ok] at returned
  obtain ⟨epochs, ⟨-, rfl⟩, seconds, ⟨-, rfl⟩, -, rfl⟩ := returned
  rfl

theorem completes_timeBetweenEpochs {cls : CLSpec} {epochPast epochNow : Nat}
    (later : epochPast ≤ epochNow) :
    Completes (timeBetweenEpochs cls epochPast epochNow) :=
  .bind (completes_usub later) fun _ _ =>
    .bind completes_umul64 fun _ _ => completes_umul

theorem isValidEpoch_later {timestamp epoch : Nat}
    (valid : river.isValidEpoch timestamp epoch = .ok true) :
    river.lastConsensusLayerReport.epoch < epoch := by
  simp only [isValidEpoch, bind_eq_ok] at valid
  obtain ⟨current, -, final, -, valid⟩ := valid
  split at valid
  · rename_i checked
    exact checked.2
  · simp at valid

/-- A valid epoch has begun by the time of the block. -/
theorem isValidEpoch_le {timestamp epoch : Nat}
    (valid : river.isValidEpoch timestamp epoch = .ok true) :
    epoch ≤ timestamp := by
  simp only [isValidEpoch, currentEpoch, bind_eq_ok, usub_eq_ok, udiv_eq_ok,
    uadd_eq_ok] at valid
  obtain ⟨current, ⟨elapsed, ⟨-, rfl⟩, slot, ⟨-, rfl⟩, -, rfl⟩, final,
    ⟨-, rfl⟩, valid⟩ := valid
  split at valid
  · rename_i checked
    calc
      epoch ≤ epoch + river.config.clSpec.epochsToAssumedFinality :=
        Nat.le_add_right _ _
      _ ≤ (timestamp - river.config.clSpec.genesisTime) /
            river.config.clSpec.secondsPerSlot /
            river.config.clSpec.slotsPerEpoch := checked.1
      _ ≤ timestamp - river.config.clSpec.genesisTime :=
        (Nat.div_le_self _ _).trans (Nat.div_le_self _ _)
      _ ≤ timestamp := Nat.sub_le _ _
  · simp at valid

theorem completes_maxIncrease {rb : ReportBounds}
    {prevTotalEth timeElapsed : Nat} :
    Completes (maxIncrease rb prevTotalEth timeElapsed) :=
  .bind completes_umul fun _ _ => .bind completes_umul fun _ _ =>
    completes_udiv (by decide)

theorem completes_maxDecrease {rb : ReportBounds} {prevTotalEth : Nat} :
    Completes (maxDecrease rb prevTotalEth) :=
  .bind completes_umul fun _ _ => completes_udiv (by decide)

theorem completes_checkBounds {rb : ReportBounds}
    {timeElapsed preReport postReport : Nat}
    (upper : postReport ≤ preReport + rb.increase preReport timeElapsed)
    (lower : preReport - min (rb.decrease preReport) preReport ≤
      postReport) :
    Completes (checkBounds rb timeElapsed preReport postReport) := by
  refine .bind completes_maxIncrease fun increase found => ?_
  obtain rfl := maxIncrease_ok found
  split
  · rename_i grown
    refine .bind completes_uadd fun limit added => ?_
    obtain ⟨-, rfl⟩ := uadd_eq_ok.mp added
    refine .bind (.require upper) fun _ _ => ?_
    refine .bind (completes_usub grown) fun earned difference => ?_
    obtain ⟨-, rfl⟩ := usub_eq_ok.mp difference
    refine .bind (completes_usub ?_) fun _ _ => .pure _
    omega
  · rename_i shrunk
    refine .bind completes_maxDecrease fun decrease found => ?_
    obtain rfl := maxDecrease_ok found
    rw [LibUint256.min_eq]
    refine .bind (completes_usub (Nat.min_le_right _ _))
      fun limit difference => ?_
    obtain ⟨-, rfl⟩ := usub_eq_ok.mp difference
    refine .bind (.require lower) fun _ _ => ?_
    refine .bind (completes_usub (by omega)) fun _ _ => ?_
    exact .bind completes_uadd fun _ _ => .pure _

/-- The fee never exceeds the assets it is taken from. -/
theorem completes_onEarnings {amount : Nat} (supplied : 0 < river.shares)
    (earned : amount ≤ river.assets) :
    Completes (river.onEarnings amount) := by
  refine .bind (.require (Nat.ne_of_gt supplied)) fun _ _ => ?_
  refine .bind completes_assetBalance fun assets valued => ?_
  obtain rfl := assetBalance_ok valued
  refine .bind completes_umul fun product _ => ?_
  refine .bind completes_umul fun numerator _ => ?_
  refine .bind completes_umul fun scaled multiplied => ?_
  obtain ⟨-, rfl⟩ := umul_eq_ok.mp multiplied
  refine .bind completes_umul fun fee multiplied => ?_
  obtain ⟨-, rfl⟩ := umul_eq_ok.mp multiplied
  have bounded : amount * river.config.globalFee.val ≤
      river.assets * basisPointsMax :=
    Nat.mul_le_mul earned river.config.globalFee.property
  refine .bind (completes_usub bounded) fun denominator _ => ?_
  refine .bind ?_ fun shares _ => ?_
  · split
    · exact .pure _
    · rename_i nonzero
      exact completes_udiv nonzero
  · split
    · exact .bind completes_mintRawShares fun _ _ =>
        .bind (completes_usub earned) fun _ _ => .pure _
    · exact .pure _

theorem completes_rebalance {demand exitingBalance : Nat} {allowed : Bool}
    (missing : river.balanceToRedeem + exitingBalance < demand) :
    Completes (river.rebalance demand exitingBalance allowed) := by
  unfold rebalance
  split
  · refine .bind (completes_usub (by omega)) fun rest difference => ?_
    obtain ⟨-, rfl⟩ := usub_eq_ok.mp difference
    refine .bind (completes_usub (by omega)) fun open_ _ => ?_
    rw [LibUint256.min_eq]
    dsimp only
    split
    · refine .bind completes_uadd fun _ _ => ?_
      exact .bind (completes_usub (Nat.min_le_left _ _)) fun _ _ => .pure _
    · exact .pure _
  · exact .pure _

theorem completes_skimExcessBalanceToRedeem :
    Completes river.skimExcessBalanceToRedeem := by
  unfold skimExcessBalanceToRedeem
  split
  · exact .bind completes_uadd fun _ _ => .pure _
  · exact .pure _

theorem balanceToDeposit_le_assets : river.balanceToDeposit ≤ river.assets := by
  unfold assets
  generalize (river.depositedValidatorCount -
    river.lastConsensusLayerReport.validatorsCount) * depositSize = pending
  omega

/-- The committed ether is at most the deposit balance. -/
theorem completes_commitBalanceToDeposit {period : Nat} {contained : Bool} :
    Completes (river.commitBalanceToDeposit period contained) := by
  unfold commitBalanceToDeposit
  split
  · exact .pure _
  · refine .bind completes_assetBalance fun assets valued => ?_
    obtain rfl := assetBalance_ok valued
    refine .bind (completes_usub balanceToDeposit_le_assets)
      fun activated _ => ?_
    refine .bind completes_umul fun product _ => ?_
    refine .bind (completes_udiv (by decide)) fun relative _ => ?_
    refine .bind completes_umul fun scaled _ => ?_
    refine .bind (completes_udiv (by decide)) fun perPeriod _ => ?_
    refine .bind (completes_udiv (by decide)) fun validators quotient => ?_
    obtain ⟨-, rfl⟩ := udiv_eq_ok.mp quotient
    refine .bind completes_umul fun amount multiplied => ?_
    obtain ⟨-, rfl⟩ := umul_eq_ok.mp multiplied
    split
    · refine .bind completes_uadd fun _ _ => ?_
      refine .bind (completes_usub ?_) fun _ _ => .pure _
      rw [LibUint256.min_eq]
      exact (Nat.div_mul_le_self _ _).trans (Nat.min_le_right _ _)
    · exact .pure _

end River

end RiverProtocol
