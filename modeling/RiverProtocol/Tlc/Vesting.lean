import RiverProtocol.Lib.Escrow
import RiverProtocol.Tlc.Model

/-!
# What a schedule vests and unlocks

`vested` and `unlocked` are the amounts the contract computes, as functions of
the time alone.  Both are monotone, so a schedule is the terms of an escrow.
-/

namespace RiverProtocol

open Checked Outcome

namespace Tlc

namespace VestingSchedule

/-- The amount vested at `time`: per elapsed period once the cliff is over. -/
def vested (schedule : VestingSchedule) (time : Nat) : Nat :=
  if time < schedule.start + schedule.cliffDuration then
    0
  else if schedule.start + schedule.duration ≤ time then
    schedule.amount
  else
    let periods := (time - schedule.start) / schedule.periodDuration
    schedule.periodDuration * periods * schedule.amount / schedule.duration

variable {schedule : VestingSchedule} {time later : Nat}

theorem vested_before (early : time < schedule.start + schedule.cliffDuration) :
    schedule.vested time = 0 :=
  if_pos early

theorem vested_after
    (cliff : schedule.start + schedule.cliffDuration ≤ time)
    (late : schedule.start + schedule.duration ≤ time) :
    schedule.vested time = schedule.amount := by
  rw [vested, if_neg (Nat.not_lt.mpr cliff), if_pos late]

theorem vested_between
    (cliff : schedule.start + schedule.cliffDuration ≤ time)
    (running : time < schedule.start + schedule.duration) :
    schedule.vested time =
      schedule.periodDuration *
        ((time - schedule.start) / schedule.periodDuration) *
        schedule.amount / schedule.duration := by
  rw [vested, if_neg (Nat.not_lt.mpr cliff), if_neg (Nat.not_le.mpr running)]

theorem periods_lt
    (cliff : schedule.start + schedule.cliffDuration ≤ time)
    (running : time < schedule.start + schedule.duration) :
    schedule.periodDuration *
      ((time - schedule.start) / schedule.periodDuration) <
        schedule.duration := by
  have counted := Nat.mul_div_le (time - schedule.start)
    schedule.periodDuration
  omega

theorem vested_le_amount : schedule.vested time ≤ schedule.amount := by
  by_cases cliff : schedule.start + schedule.cliffDuration ≤ time
  · by_cases running : time < schedule.start + schedule.duration
    · rw [vested_between cliff running]
      apply Nat.div_le_of_le_mul
      exact Nat.mul_le_mul_right _ (periods_lt cliff running).le
    · exact (vested_after cliff (Nat.le_of_not_lt running)).le
  · rw [vested_before (Nat.lt_of_not_le cliff)]
    exact Nat.zero_le _

theorem vested_lt_amount (positive : 0 < schedule.amount)
    (running : time < schedule.start + schedule.duration) :
    schedule.vested time < schedule.amount := by
  by_cases cliff : schedule.start + schedule.cliffDuration ≤ time
  · rw [vested_between cliff running]
    have counted := periods_lt cliff running
    apply Nat.div_lt_of_lt_mul
    exact Nat.mul_lt_mul_of_pos_right counted positive
  · rw [vested_before (Nat.lt_of_not_le cliff)]
    exact positive

theorem vested_mono (schedule : VestingSchedule) :
    Monotone schedule.vested := by
  intro time later passed
  by_cases cliff : schedule.start + schedule.cliffDuration ≤ time
  · by_cases running : later < schedule.start + schedule.duration
    · rw [vested_between cliff (passed.trans_lt running),
        vested_between (cliff.trans passed) running]
      apply Nat.div_le_div_right
      apply Nat.mul_le_mul_right
      apply Nat.mul_le_mul_left
      apply Nat.div_le_div_right
      exact Nat.sub_le_sub_right passed _
    · rw [vested_after (cliff.trans passed) (Nat.le_of_not_lt running)]
      exact vested_le_amount
  · rw [vested_before (Nat.lt_of_not_le cliff)]
    exact Nat.zero_le _

/-- What an accepted schedule satisfies; no call changes it. -/
structure Accepted (schedule : VestingSchedule) : Prop where
  period_pos : 0 < schedule.periodDuration
  cliff_le : schedule.cliffDuration ≤ schedule.duration
  fits : schedule.start + schedule.duration < uint64Limit
  end_le : schedule.endTime ≤ schedule.start + schedule.duration
  amount_le : schedule.amount ≤ initialSupply

theorem Accepted.vested_final (accepted : schedule.Accepted) :
    schedule.vested (schedule.start + schedule.duration) = schedule.amount :=
  vested_after (Nat.add_le_add_left accepted.cliff_le _) le_rfl

/-- The contract computes what is vested and cannot fail to. -/
theorem Accepted.computeVestedAmount_eq (accepted : schedule.Accepted) :
    schedule.computeVestedAmount time = .ok (schedule.vested time) := by
  have cliff_le := accepted.cliff_le
  have fits := accepted.fits
  unfold computeVestedAmount
  rw [uadd64_of_lt (by omega), ok_bind]
  by_cases cliff : schedule.start + schedule.cliffDuration ≤ time
  · rw [if_neg (Nat.not_lt.mpr cliff), uadd64_of_lt fits, ok_bind]
    by_cases running : time < schedule.start + schedule.duration
    · have started : schedule.start ≤ time := by omega
      have counted := periods_lt cliff running
      have partition := Nat.div_add_mod (time - schedule.start)
        schedule.periodDuration
      have elapsed : time - schedule.start -
          (time - schedule.start) % schedule.periodDuration =
          schedule.periodDuration *
            ((time - schedule.start) / schedule.periodDuration) := by
        omega
      have product : schedule.periodDuration *
          ((time - schedule.start) / schedule.periodDuration) *
          schedule.amount < wordLimit := by
        calc
          _ ≤ uint64Limit * initialSupply :=
            Nat.mul_le_mul (by omega) accepted.amount_le
          _ < wordLimit := by decide
      rw [if_neg (Nat.not_le.mpr running), usub_of_le started, ok_bind,
        umod_of_ne accepted.period_pos.ne', ok_bind,
        usub_of_le (Nat.mod_le _ _), ok_bind, elapsed, umul_of_lt product,
        ok_bind, udiv_of_ne (by omega), vested_between cliff running]
    · have late := Nat.le_of_not_lt running
      rw [if_pos late, vested_after cliff late]
      rfl
  · have early := Nat.lt_of_not_le cliff
    rw [if_pos early, vested_before early]
    rfl

end VestingSchedule

/-- A twenty-fourth of the amount a month, up to the amount. -/
def unlocked (amount elapsed : Nat) : Nat :=
  min amount (amount / 24 * (elapsed / unlockMonth))

theorem unlocked_mono (amount : Nat) : Monotone (unlocked amount) := by
  intro elapsed later passed
  apply le_min (min_le_left _ _)
  apply (min_le_right _ _).trans
  exact Nat.mul_le_mul_left _ (Nat.div_le_div_right passed)

theorem computeGlobalUnlocked_eq_ok {amount elapsed value : Nat} :
    computeGlobalUnlocked amount elapsed = .ok value ↔
      amount / 24 * (elapsed / unlockMonth) < wordLimit ∧
        unlocked amount elapsed = value := by
  simp only [computeGlobalUnlocked, bind_eq_ok, umul_eq_ok, pure_eq_ok]
  have bounded (product : Nat) : (if product > amount then amount
      else product) = min amount product := by
    split <;> omega
  constructor
  · rintro ⟨_, ⟨fits, rfl⟩, rfl⟩
    exact ⟨fits, (bounded _).symm⟩
  · rintro ⟨fits, rfl⟩
    exact ⟨_, ⟨fits, rfl⟩, bounded _⟩

theorem computeGlobalUnlocked_eq {amount elapsed : Nat}
    (bounded : amount ≤ initialSupply) (recent : elapsed < uint64Limit) :
    computeGlobalUnlocked amount elapsed = .ok (unlocked amount elapsed) := by
  apply computeGlobalUnlocked_eq_ok.mpr
  refine ⟨?_, rfl⟩
  calc
    _ ≤ initialSupply * uint64Limit :=
      Nat.mul_le_mul ((Nat.div_le_self _ _).trans bounded)
        ((Nat.div_le_self _ _).trans recent.le)
    _ < wordLimit := by decide

namespace VestingSchedule

variable {schedule : VestingSchedule} {ignored : Bool} {time now : Nat}

def lockEnd (schedule : VestingSchedule) : Nat :=
  schedule.start + schedule.lockDuration

/-- The escrow terms: without the global unlock schedule only the vesting
bounds what is released. -/
def terms (schedule : VestingSchedule) (ignored : Bool) :
    Escrow.Terms Nat where
  earned := schedule.vested
  cap now := if ignored then schedule.amount
    else unlocked schedule.amount (now - schedule.lockEnd)
  earned_mono := schedule.vested_mono
  cap_mono := by
    intro time later passed
    cases ignored with
    | true => exact le_rfl
    | false => exact unlocked_mono _ (Nat.sub_le_sub_right passed _)

end VestingSchedule

end Tlc

end RiverProtocol
