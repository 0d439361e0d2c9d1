import Mathlib.Algebra.Order.Field.Basic
import Mathlib.Algebra.Order.Field.Rat
import Mathlib.Order.Bounds.Defs
import RiverProtocol.River.Progress
import RiverProtocol.System.ReportBounds

/-!
# The fee on earnings

The collector receives as many shares as the fee pays for, and not one more,
at the value they have once they are minted.  A report that finds no loss on
the consensus layer never lowers the value of a share before its withdrawal
step, whatever it pulls and however high the fee is.
-/

namespace RiverProtocol

open Checked Outcome

open Rate (Pool)

namespace River

variable {river after : River} {amount : Nat}

theorem feeAmount_le (earned : amount ≤ river.assets) :
    amount * river.config.globalFee.val ≤ river.assets * basisPointsMax :=
  Nat.mul_le_mul earned river.config.globalFee.property

theorem feeShares_eq : river.feeShares amount =
    amount * river.config.globalFee.val * river.shares /
      (river.assets * basisPointsMax -
        amount * river.config.globalFee.val) := by
  rw [feeShares, Nat.mul_right_comm]

theorem le_feeShares_iff {minted : Nat}
    (positive : amount * river.config.globalFee.val <
      river.assets * basisPointsMax) :
    minted ≤ river.feeShares amount ↔
      minted * (river.assets * basisPointsMax) ≤
        amount * river.config.globalFee.val * (river.shares + minted) := by
  rw [feeShares_eq]
  exact Pool.le_fee_iff positive

theorem worth_le_fee_iff {minted : Nat} (supplied : 0 < river.shares) :
    ((minted : ℚ) * river.assets / (river.shares + minted) ≤
        (amount : ℚ) * river.config.globalFee.val / basisPointsMax) ↔
      minted * (river.assets * basisPointsMax) ≤
        amount * river.config.globalFee.val * (river.shares + minted) := by
  have supply : (0 : ℚ) < river.shares + minted := by
    exact_mod_cast Nat.add_pos_left supplied minted
  have scale : (0 : ℚ) < basisPointsMax := by
    exact_mod_cast (by decide : 0 < basisPointsMax)
  rw [div_le_div_iff₀ supply scale, mul_assoc]
  exact_mod_cast Iff.rfl

theorem isGreatest_feeShares (supplied : 0 < river.shares)
    (positive : amount * river.config.globalFee.val <
      river.assets * basisPointsMax) :
    IsGreatest {minted : Nat |
      (minted : ℚ) * river.assets / (river.shares + minted) ≤
        (amount : ℚ) * river.config.globalFee.val / basisPointsMax}
      (river.feeShares amount) := by
  constructor
  · exact (worth_le_fee_iff supplied).mpr
      ((le_feeShares_iff positive).mp (Nat.le_refl _))
  · intro minted within
    exact (le_feeShares_iff positive).mpr
      ((worth_le_fee_iff supplied).mp within)

/-- Minting the fee takes at most the earnings from the other holders. -/
theorem feeShares_mul_le (river : River) (amount : Nat) :
    river.feeShares amount * river.assets ≤
      amount * (river.shares + river.feeShares amount) := by
  have scale : 0 < basisPointsMax := by decide
  rcases Nat.lt_or_ge (amount * river.config.globalFee.val)
    (river.assets * basisPointsMax) with positive | whole
  · have bound := (le_feeShares_iff positive).mp (Nat.le_refl _)
    apply Nat.le_of_mul_le_mul_right _ scale
    calc
      river.feeShares amount * river.assets * basisPointsMax ≤
          amount * river.config.globalFee.val *
            (river.shares + river.feeShares amount) := by
        rw [Nat.mul_assoc]
        exact bound
      _ ≤ amount * basisPointsMax *
            (river.shares + river.feeShares amount) :=
        Nat.mul_le_mul_right _
          (Nat.mul_le_mul_left _ river.config.globalFee.property)
      _ = amount * (river.shares + river.feeShares amount) *
            basisPointsMax := Nat.mul_right_comm _ _ _
  · rw [feeShares, Nat.sub_eq_zero_of_le whole, Nat.div_zero, Nat.zero_mul]
    exact Nat.zero_le _

theorem below_of_earning {before : Pool} {rewards : Nat}
    (earning : (if rewards > 0 then river.onEarnings rewards
      else pure river) = .ok after)
    (gained : before.assets + rewards ≤ river.assets)
    (supply : before.shares = river.shares) :
    before.Below after.pool := by
  obtain ⟨-, minting⟩ := earned_ok earning
  have bound := river.feeShares_mul_le rewards
  generalize river.feeShares rewards = minted at minting bound
  have pool : after.pool = ⟨river.assets, before.shares + minted⟩ := by
    rw [minting, River.pool, minted_assets, minted_shares, supply]
  rw [← supply] at bound
  rw [pool]
  exact Pool.below_of_fee gained bound

end River

namespace System

variable {deployment : Deployment} {system after prepared : System}
  {funds : ExternalFunds} {timestamp : Nat} {sender : Address}
  {report : ConsensusLayerReport} {increase : River.ReportIncrease}
  {trace : ReportingTrace}

/-- The validators' balance, with what was skimmed and exited since the last
report, did not fall below the last balance and the deposits of the validators
activated since. -/
def NoLoss (river : River) (report : ConsensusLayerReport)
    (increase : River.ReportIncrease) : Prop :=
  river.lastConsensusLayerReport.validatorsBalance +
      (report.validatorsCount -
        river.lastConsensusLayerReport.validatorsCount) * depositSize ≤
    report.validatorsBalance + increase.skimmedAmountIncrease +
      increase.exitedAmountIncrease

instance (river : River) (report : ConsensusLayerReport)
    (increase : River.ReportIncrease) :
    Decidable (NoLoss river report increase) :=
  inferInstanceAs (Decidable (_ ≤ _))

theorem applied_assets_of_noLoss
    (checked : River.Checked system.river sender timestamp report increase)
    (noLoss : NoLoss system.river report increase) :
    system.river.assets ≤ (system.applied increase report).river.assets := by
  have deposited := checked.deposited
  have activated := checked.activated
  have pending : system.river.depositedValidatorCount -
        system.river.lastConsensusLayerReport.validatorsCount =
      (report.validatorsCount -
        system.river.lastConsensusLayerReport.validatorsCount) +
      (system.river.depositedValidatorCount - report.validatorsCount) := by
    omega
  unfold NoLoss at noLoss
  simp only [River.assets, applied, River.reported]
  rw [pending, Nat.add_mul]
  omega

/-- With no loss the fee leaves every share worth at least what it was worth
before the report. -/
theorem Preparation.below_of_noLoss {rewarded : River}
    (stages : Preparation funds timestamp sender report system prepared
      increase trace) (noLoss : NoLoss system.river report increase)
    (earning : (if trace.rewards > 0 then
        ((system.applied increase report).river.received
          trace.collected).onEarnings trace.rewards
      else pure ((system.applied increase report).river.received
        trace.collected)) = .ok rewarded) :
    system.river.pool.Below rewarded.pool := by
  have grown := applied_assets_of_noLoss
    (River.checkReport_ok stages.checking) noLoss
  have bounded := River.checkBounds_ok stages.bounds
  have rewards := stages.pulls.rewards
  have earned := bounded.rewards
  have fees : trace.pulledELFees ≤ trace.collected := by
    unfold ReportingTrace.collected
    omega
  refine River.below_of_earning earning ?_ rfl
  change system.river.assets + trace.rewards ≤ _
  rw [River.received_assets]
  omega

/-- The fee shares are exact, and a report without a loss never lowers the
value of a share before its withdrawal step. -/
theorem fee_exact :
    (∀ (river : River) (amount : Nat), 0 < river.shares →
      amount ≤ river.assets →
      amount * river.config.globalFee.val ≤ river.assets * basisPointsMax ∧
      river.onEarnings amount ≠ .error (.panic .underflow) ∧
      ((∃ after, river.onEarnings amount = .ok after) ∨
        river.onEarnings amount = .error (.panic .overflow)) ∧
      ∀ after, river.onEarnings amount = .ok after →
        ∃ sharesToMint,
          after = river.minted river.config.collector sharesToMint ∧
          (river.assets * basisPointsMax =
            amount * river.config.globalFee.val → sharesToMint = 0) ∧
          (amount * river.config.globalFee.val <
              river.assets * basisPointsMax →
            IsGreatest {minted : Nat |
              (minted : ℚ) * river.assets / (river.shares + minted) ≤
                (amount : ℚ) * river.config.globalFee.val / basisPointsMax}
              sharesToMint)) ∧
    ∀ (deployment : Deployment) (system after : System)
      (funds : ExternalFunds) (timestamp : Nat) (sender : Address)
      (report : ConsensusLayerReport) (trace : ReportingTrace),
      Reachable deployment system →
      system.setConsensusLayerData deployment funds timestamp sender report =
        .ok (after, trace) →
      ∃ (increase : River.ReportIncrease) (applied : System)
        (rewarded : River),
        system.river.checkReport sender timestamp report = .ok increase ∧
        system.applyReport increase report = .ok applied ∧
        (if trace.rewards > 0 then
            (applied.river.received trace.collected).onEarnings trace.rewards
          else pure (applied.river.received trace.collected)) =
          .ok rewarded ∧
        (NoLoss system.river report increase →
          system.river.assets * rewarded.shares ≤
            rewarded.assets * system.river.shares) := by
  refine ⟨?_, ?_⟩
  · intro river amount supplied earned
    have completes :=
      completes_iff.mp (River.completes_onEarnings supplied earned)
    refine ⟨River.feeAmount_le earned, ?_, completes, ?_⟩
    · intro failed
      rcases completes with ⟨after, returned⟩ | overflow
      · cases returned.symm.trans failed
      · cases overflow.symm.trans failed
    · intro after returned
      obtain ⟨-, rfl⟩ := River.onEarnings_ok returned
      refine ⟨_, rfl, fun whole => ?_, River.isGreatest_feeShares supplied⟩
      rw [River.feeShares, whole, Nat.sub_self, Nat.div_zero]
  · intro deployment system after funds timestamp sender report trace
      reachable returned
    have sound := Sound.of_reachable reachable
    obtain ⟨prepared, increase, preparing, -⟩ :=
      setConsensusLayerData_ok returned
    obtain ⟨stages⟩ := prepareReport_ok sound.registry preparing
    exact ⟨increase, system.applied increase report, _, stages.checking,
      stages.applying, stages.earning,
      fun noLoss => stages.below_of_noLoss noLoss stages.earning⟩

/-- The next report of the sample run earns fees, and mints shares for them. -/
theorem fee_exact_sample :
    ∃ (system after : System) (trace : ReportingTrace) (rewarded : River),
      sampleRun = .ok system ∧
      system.setConsensusLayerData sample (feesUpTo ether) 1000000
        (.ofNat 11) (quietReport 675 true) = .ok (after, trace) ∧
      trace.rewards = 8767123287671232 ∧
      system.river.shares + 876496206414856 = rewarded.shares ∧
      system.river.assets * rewarded.shares ≤
        rewarded.assets * system.river.shares := by
  have checked : returns sampleRun (fun system =>
      returns (system.river.checkReport (.ofNat 11) 1000000
        (quietReport 675 true)) fun increase =>
      returns (system.applyReport increase (quietReport 675 true))
        fun applied =>
      returns (system.setConsensusLayerData sample (feesUpTo ether) 1000000
        (.ofNat 11) (quietReport 675 true)) fun report =>
      returns ((applied.river.received report.2.collected).onEarnings
        report.2.rewards) fun rewarded =>
          NoLoss system.river (quietReport 675 true) increase ∧
            report.2.rewards = 8767123287671232 ∧
            system.river.shares + 876496206414856 = rewarded.shares) =
      true := by
    decide +kernel
  obtain ⟨system, returned, facts⟩ := returns_iff.mp checked
  obtain ⟨found, checking, facts⟩ := returns_iff.mp facts
  obtain ⟨reached, applying, facts⟩ := returns_iff.mp facts
  obtain ⟨⟨after, trace⟩, reporting, facts⟩ := returns_iff.mp facts
  obtain ⟨minted, earning, facts⟩ := returns_iff.mp facts
  obtain ⟨noLoss, rewards, shares⟩ := of_decide_eq_true facts
  obtain ⟨increase, applied, rewarded, same, sameApplied, earned, below⟩ :=
    fee_exact.2 sample system after _ _ _ _ trace
      (sampleRun_reachable returned) reporting
  obtain rfl := Except.ok.inj (checking.symm.trans same)
  obtain rfl := Except.ok.inj (applying.symm.trans sameApplied)
  dsimp only at rewards earning
  rw [if_pos (by rw [rewards]; decide), earning] at earned
  obtain rfl := Except.ok.inj earned
  exact ⟨system, after, trace, minted, returned, reporting, rewards, shares,
    below noLoss⟩

end System

end RiverProtocol
