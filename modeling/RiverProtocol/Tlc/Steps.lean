import RiverProtocol.Tlc.Vesting

/-!
# What the calls of the token do

One lemma for each call says what it changes when it returns, under which
checks; the last ones say how a release and a revocation can fail.
-/

namespace RiverProtocol

open Checked Outcome Balances

namespace Tlc

variable {tlc after : Tlc} {escrow : Nat → Address} {now index : Nat}
  {sender recipient creator : Address}

theorem transfer_ok {value : Nat}
    (returned : tlc.transfer sender recipient value = .ok after) :
    value ≤ tlc.balanceOf sender ∧
      after = { tlc with
        balanceOf := move tlc.balanceOf sender recipient value } := by
  simp only [transfer, bind_eq_ok, require_eq_ok, pure_eq_ok] at returned
  obtain ⟨-, -, -, -, -, enough, rfl⟩ := returned
  exact ⟨enough, rfl⟩

theorem transfer_error {value : Nat} {failure : Error}
    (enough : value ≤ tlc.balanceOf sender)
    (failed : tlc.transfer sender recipient value = .error failure) :
    failure = .transferFromTheZeroAddress ∨
      failure = .transferToTheZeroAddress := by
  simp only [transfer, bind_eq_error, require_eq_error, pure_eq_error,
    and_false, exists_false, or_false] at failed
  obtain ⟨-, rfl⟩ | ⟨-, -, ⟨-, rfl⟩ | ⟨-, -, poor, -⟩⟩ := failed
  · exact .inl rfl
  · exact .inr rfl
  · exact absurd enough poor

/-- The schedule the parameters describe. -/
def NewSchedule.opened (schedule : NewSchedule) (creator : Address)
    (start : Nat) : VestingSchedule :=
  { start
    endTime := start + schedule.duration
    lockDuration := schedule.lockDuration
    cliffDuration := schedule.cliffDuration
    duration := schedule.duration
    periodDuration := schedule.periodDuration
    amount := schedule.amount
    creator
    beneficiary := schedule.beneficiary
    revocable := schedule.revocable
    releasedAmount := 0 }

theorem validateScheduleParameters_ok {schedule : NewSchedule}
    (valid : validateScheduleParameters schedule = .ok ()) :
    0 < schedule.periodDuration ∧
      schedule.cliffDuration ≤ schedule.duration := by
  simp only [validateScheduleParameters, bind_eq_ok, require_eq_ok,
    umod_eq_ok] at valid
  obtain ⟨-, -, -, -, -, -, -, period, -, -, -, -, -, -, -, -, -, cliff, -⟩ :=
    valid
  exact ⟨Nat.pos_of_ne_zero period, cliff⟩

theorem createVestingSchedule_ok {schedule : NewSchedule}
    (returned : tlc.createVestingSchedule escrow now creator schedule =
      .ok (after, index)) :
    ∃ start delegates,
      schedule.amount ≤ tlc.balanceOf creator ∧
      0 < schedule.periodDuration ∧
      schedule.cliffDuration ≤ schedule.duration ∧
      start + schedule.duration < uint64Limit ∧
      index = tlc.vestingSchedules.length ∧
      after =
        { balanceOf :=
            move tlc.balanceOf creator (escrow index) schedule.amount
          delegates
          vestingSchedules :=
            tlc.vestingSchedules ++ [schedule.opened creator start]
          ignoreGlobalUnlockSchedule :=
            Function.update tlc.ignoreGlobalUnlockSchedule index
              schedule.ignoreGlobalUnlockSchedule } := by
  simp only [createVestingSchedule, bind_eq_ok, require_eq_ok, uadd64_eq_ok,
    pure_eq_ok, Prod.mk.injEq] at returned
  obtain ⟨-, held, _, valid, -, ⟨fits, rfl⟩, moved, transferred, rfl, rfl⟩ :=
    returned
  obtain ⟨-, rfl⟩ := transfer_ok transferred
  obtain ⟨period, cliff⟩ := validateScheduleParameters_ok valid
  exact ⟨_, _, held, period, cliff, fits, rfl, rfl⟩

/-- What must have been released once everything due is. -/
def VestingSchedule.due (schedule : VestingSchedule) (ignored : Bool)
    (now : Nat) : Nat :=
  min (schedule.vested (min now schedule.endTime))
    ((schedule.terms ignored).cap now)

variable {schedule : VestingSchedule} {revertIfLocked : Bool}

theorem getVestingSchedule_of
    (found : tlc.vestingSchedules[index]? = some schedule) :
    tlc.getVestingSchedule index = .ok schedule :=
  fetch_eq_ok.mpr found

/-- Past the lock: the smaller of what is vested and unlocked, less what is
already released. -/
theorem releasable_eq {ignored : Bool} (accepted : schedule.Accepted)
    (recent : now < uint64Limit)
    (capped : schedule.releasedAmount ≤ (schedule.terms ignored).cap now) :
    (if schedule.vested (min now schedule.endTime) > schedule.releasedAmount
      then
        if ignored then
          pure (schedule.vested (min now schedule.endTime) -
            schedule.releasedAmount)
        else do
          let globalUnlocked ←
            computeGlobalUnlocked schedule.amount (now - schedule.lockEnd)
          require (schedule.releasedAmount ≤ globalUnlocked)
            .globalUnlockUnderlfow
          usub (LibUint256.min (schedule.vested (min now schedule.endTime))
            globalUnlocked) schedule.releasedAmount
      else
        pure 0 : Except Error Nat) =
      .ok (schedule.due ignored now - schedule.releasedAmount) := by
  by_cases more :
      schedule.vested (min now schedule.endTime) > schedule.releasedAmount
  · rw [if_pos more]
    cases ignored with
    | true =>
        have vested_le : schedule.vested (min now schedule.endTime) ≤
            schedule.amount := VestingSchedule.vested_le_amount
        have due : schedule.due true now =
            schedule.vested (min now schedule.endTime) :=
          min_eq_left vested_le
        rw [due]
        rfl
    | false =>
        have unlocked_le : schedule.releasedAmount ≤
            unlocked schedule.amount (now - schedule.lockEnd) := capped
        have due : schedule.due false now =
            min (schedule.vested (min now schedule.endTime))
              (unlocked schedule.amount (now - schedule.lockEnd)) := rfl
        rw [if_neg Bool.false_ne_true,
          computeGlobalUnlocked_eq accepted.amount_le (by omega), ok_bind,
          require_of unlocked_le, ok_bind, LibUint256.min_eq, due]
        exact usub_of_le (le_min more.le unlocked_le)
  · have due_le : schedule.due ignored now ≤
        schedule.vested (min now schedule.endTime) := min_le_left _ _
    rw [if_neg more, Nat.sub_eq_zero_of_le (by omega)]
    rfl

/-- What is releasable: nothing before the end of the lock, then whatever is
due and not released yet. -/
theorem computeReleasableAmount_eq (accepted : schedule.Accepted)
    (recent : now < uint64Limit)
    (capped : schedule.releasedAmount ≤
      (schedule.terms (tlc.ignoreGlobalUnlockSchedule index)).cap now) :
    tlc.computeReleasableAmount schedule revertIfLocked now index =
      if uint64Limit ≤ schedule.lockEnd then
        .error (.panic .overflow)
      else if now < schedule.lockEnd then
        if revertIfLocked then .error .vestingScheduleIsLocked else .ok 0
      else
        .ok (schedule.due (tlc.ignoreGlobalUnlockSchedule index) now -
          schedule.releasedAmount) := by
  have deadline : (if now > schedule.endTime then schedule.endTime else now) =
      min now schedule.endTime := by
    split <;> omega
  have sum : schedule.start + schedule.lockDuration = schedule.lockEnd := rfl
  unfold computeReleasableAmount
  by_cases fits : schedule.lockEnd < uint64Limit
  · rw [if_neg (Nat.not_le.mpr fits), uadd64_of_lt fits, ok_bind, sum,
      deadline, accepted.computeVestedAmount_eq, ok_bind]
    by_cases unlocks : schedule.lockEnd ≤ now
    · rw [if_neg (Nat.not_lt.mpr unlocks), if_neg (Nat.not_lt.mpr unlocks),
        usub_of_le unlocks, ok_bind]
      exact releasable_eq accepted recent capped
    · have locked := Nat.lt_of_not_le unlocks
      rw [if_pos locked, if_pos locked]
      rfl
  · have overflows := Nat.le_of_not_lt fits
    rw [if_pos overflows]
    have failed : (uadd64 schedule.start schedule.lockDuration :
        Except Error Nat) = .error (.panic .overflow) :=
      uadd64_eq_error.mpr ⟨overflows, rfl⟩
    rw [failed]
    rfl

theorem releaseVestingSchedule_found {releasable : Nat}
    (returned : tlc.releaseVestingSchedule escrow now sender index =
      .ok (after, releasable)) :
    ∃ schedule, tlc.vestingSchedules[index]? = some schedule := by
  simp only [releaseVestingSchedule, getVestingSchedule, bind_eq_ok,
    fetch_eq_ok] at returned
  obtain ⟨schedule, found, -⟩ := returned
  exact ⟨schedule, found⟩

/-- What a release does, at any time. -/
theorem releaseVestingSchedule_effect {releasable : Nat}
    (found : tlc.vestingSchedules[index]? = some schedule)
    (returned : tlc.releaseVestingSchedule escrow now sender index =
      .ok (after, releasable)) :
    sender = schedule.beneficiary ∧
      tlc.computeReleasableAmount schedule true now index = .ok releasable ∧
      0 < releasable ∧ releasable ≤ tlc.balanceOf (escrow index) ∧
      after = { tlc with
        balanceOf := move tlc.balanceOf (escrow index) sender releasable
        vestingSchedules := tlc.vestingSchedules.set index
          { schedule with
            releasedAmount := schedule.releasedAmount + releasable } } := by
  simp only [releaseVestingSchedule, getVestingSchedule_of found, ok_bind,
    bind_eq_ok, require_eq_ok, uadd_eq_ok, pure_eq_ok,
    Prod.mk.injEq] at returned
  obtain ⟨-, caller, amount, computed, -, nonzero, moved, transferred, -,
    ⟨-, rfl⟩, rfl, rfl⟩ := returned
  obtain ⟨enough, rfl⟩ := transfer_ok transferred
  exact ⟨caller, computed, Nat.pos_of_ne_zero nonzero, enough, rfl⟩

theorem releaseVestingSchedule_ok {releasable : Nat}
    (found : tlc.vestingSchedules[index]? = some schedule)
    (accepted : schedule.Accepted) (recent : now < uint64Limit)
    (capped : schedule.releasedAmount ≤
      (schedule.terms (tlc.ignoreGlobalUnlockSchedule index)).cap now)
    (returned : tlc.releaseVestingSchedule escrow now sender index =
      .ok (after, releasable)) :
    schedule.lockEnd ≤ now ∧ sender = schedule.beneficiary ∧
      0 < releasable ∧ releasable ≤ tlc.balanceOf (escrow index) ∧
      schedule.releasedAmount + releasable =
        schedule.due (tlc.ignoreGlobalUnlockSchedule index) now ∧
      after = { tlc with
        balanceOf := move tlc.balanceOf (escrow index) sender releasable
        vestingSchedules := tlc.vestingSchedules.set index
          { schedule with
            releasedAmount := schedule.releasedAmount + releasable } } := by
  obtain ⟨caller, computed, positive, enough, rfl⟩ :=
    releaseVestingSchedule_effect found returned
  rw [computeReleasableAmount_eq accepted recent capped] at computed
  split at computed
  · cases computed
  · split at computed
    · cases computed
    · have due := Except.ok.inj computed
      refine ⟨by omega, caller, positive, enough, by omega, rfl⟩

/-- How a release can fail when its escrow holds what is releasable. -/
theorem releaseVestingSchedule_error {failure : Error}
    (found : tlc.vestingSchedules[index]? = some schedule)
    (accepted : schedule.Accepted) (recent : now < uint64Limit)
    (capped : schedule.releasedAmount ≤
      (schedule.terms (tlc.ignoreGlobalUnlockSchedule index)).cap now)
    (payable : schedule.due (tlc.ignoreGlobalUnlockSchedule index) now -
      schedule.releasedAmount ≤ tlc.balanceOf (escrow index))
    (failed : tlc.releaseVestingSchedule escrow now sender index =
      .error failure) :
    failure = .unauthorized sender ∨ failure = .panic .overflow ∨
      failure = .vestingScheduleIsLocked ∨ failure = .zeroReleasableAmount ∨
      failure = .transferFromTheZeroAddress ∨
      failure = .transferToTheZeroAddress := by
  simp only [releaseVestingSchedule, getVestingSchedule_of found, ok_bind,
    computeReleasableAmount_eq accepted recent capped, bind_eq_error,
    require_eq_error, uadd_eq_error, pure_eq_error, and_false, exists_false,
    or_false] at failed
  obtain ⟨-, rfl⟩ | ⟨-, -, failed | ⟨releasable, computed, failed⟩⟩ := failed
  · exact .inl rfl
  · split at failed
    · cases failed
      exact .inr (.inl rfl)
    · split at failed
      · cases failed
        exact .inr (.inr (.inl rfl))
      · cases failed
  · obtain ⟨-, rfl⟩ | ⟨-, -, failed | ⟨-, -, -, rfl⟩⟩ := failed
    · exact .inr (.inr (.inr (.inl rfl)))
    · split at computed
      · cases computed
      · split at computed
        · cases computed
        · cases computed
          obtain rfl | rfl := transfer_error payable failed
          · simp
          · simp
    · exact .inr (.inl rfl)

/-- The global unlock schedule never unlocks less than was released. -/
theorem computeVestingReleasableAmount_error {failure : Error}
    (found : tlc.vestingSchedules[index]? = some schedule)
    (accepted : schedule.Accepted) (recent : now < uint64Limit)
    (capped : schedule.releasedAmount ≤
      (schedule.terms (tlc.ignoreGlobalUnlockSchedule index)).cap now)
    (failed : tlc.computeVestingReleasableAmount now index =
      .error failure) : failure = .panic .overflow := by
  rw [computeVestingReleasableAmount, getVestingSchedule_of found, ok_bind,
    computeReleasableAmount_eq accepted recent capped] at failed
  split at failed
  · cases failed
    rfl
  · split at failed
    · cases failed
    · cases failed

theorem revokedEnd_ok {newEnd deadline : Nat} (recent : now < uint64Limit)
    (chosen : revokedEnd now newEnd = .ok deadline) : now ≤ deadline := by
  unfold revokedEnd at chosen
  split at chosen
  · cases chosen
    exact (toUint64_of_lt recent).ge
  · simp only [bind_eq_ok, require_eq_ok, pure_eq_ok] at chosen
    obtain ⟨-, ahead, rfl⟩ := chosen
    exact ahead

theorem returnTokens_ok {value : Nat}
    (returned : tlc.returnTokens sender recipient value = .ok after) :
    value ≤ tlc.balanceOf sender ∧
      after = { tlc with
        balanceOf := move tlc.balanceOf sender recipient value } := by
  unfold returnTokens at returned
  split at returned
  · exact transfer_ok returned
  · obtain rfl : value = 0 := by omega
    cases returned
    rw [move_zero]
    exact ⟨Nat.zero_le _, rfl⟩

theorem revokedEnd_error {newEnd : Nat} {failure : Error}
    (failed : revokedEnd now newEnd = .error failure) :
    failure = .vestingScheduleNotRevocableInPast := by
  unfold revokedEnd at failed
  split at failed
  · cases failed
  · simp only [bind_eq_error, require_eq_error, pure_eq_error, and_false,
      exists_false, or_false] at failed
    exact failed.2.symm

theorem returnTokens_error {value : Nat} {failure : Error}
    (enough : value ≤ tlc.balanceOf sender)
    (failed : tlc.returnTokens sender recipient value = .error failure) :
    failure = .transferFromTheZeroAddress ∨
      failure = .transferToTheZeroAddress := by
  unfold returnTokens at failed
  split at failed
  · exact transfer_error enough failed
  · cases failed

theorem revokeVestingSchedule_found {newEnd returnedAmount : Nat}
    (returned : tlc.revokeVestingSchedule escrow now sender index newEnd =
      .ok (after, returnedAmount)) :
    ∃ schedule, tlc.vestingSchedules[index]? = some schedule := by
  simp only [revokeVestingSchedule, getVestingSchedule, bind_eq_ok,
    fetch_eq_ok] at returned
  obtain ⟨-, -, schedule, found, -⟩ := returned
  exact ⟨schedule, found⟩

theorem revokeVestingSchedule_ok {newEnd returnedAmount : Nat}
    (found : tlc.vestingSchedules[index]? = some schedule)
    (accepted : schedule.Accepted)
    (returned : tlc.revokeVestingSchedule escrow now sender index newEnd =
      .ok (after, returnedAmount)) :
    ∃ deadline, revokedEnd now newEnd = .ok deadline ∧
      schedule.start ≤ deadline ∧
      deadline ≤ schedule.endTime ∧ sender = schedule.creator ∧
      returnedAmount =
        schedule.vested schedule.endTime - schedule.vested deadline ∧
      returnedAmount ≤ tlc.balanceOf (escrow index) ∧
      after = { tlc with
        balanceOf := move tlc.balanceOf (escrow index) sender returnedAmount
        vestingSchedules := tlc.vestingSchedules.set index
          { schedule with endTime := deadline } } := by
  simp only [revokeVestingSchedule, getVestingSchedule_of found, ok_bind,
    accepted.computeVestedAmount_eq, bind_eq_ok, require_eq_ok, usub_eq_ok,
    pure_eq_ok, Prod.mk.injEq] at returned
  obtain ⟨deadline, chosen, -, -, -, ⟨started, sooner⟩, -, caller, -,
    ⟨-, rfl⟩, paid, transferred, rfl, rfl⟩ := returned
  obtain ⟨enough, rfl⟩ := returnTokens_ok transferred
  exact ⟨deadline, chosen, started, sooner, caller.symm, rfl, enough, rfl⟩

/-- How a revocation can fail when its escrow holds what no deadline ahead
leaves vested. -/
theorem revokeVestingSchedule_error {newEnd : Nat} {failure : Error}
    (found : tlc.vestingSchedules[index]? = some schedule)
    (accepted : schedule.Accepted) (recent : now < uint64Limit)
    (returnable : ∀ deadline, now ≤ deadline →
      deadline ≤ schedule.endTime →
      schedule.vested schedule.endTime - schedule.vested deadline ≤
        tlc.balanceOf (escrow index))
    (failed : tlc.revokeVestingSchedule escrow now sender index newEnd =
      .error failure) :
    failure = .vestingScheduleNotRevocableInPast ∨
      failure = .vestingScheduleNotRevocable ∨
      failure = .invalidRevokedVestingScheduleEnd ∨
      failure = .unauthorized sender ∨
      failure = .transferFromTheZeroAddress ∨
      failure = .transferToTheZeroAddress := by
  simp only [revokeVestingSchedule, getVestingSchedule_of found, ok_bind,
    accepted.computeVestedAmount_eq, bind_eq_error, require_eq_error,
    require_eq_ok, usub_eq_error, usub_eq_ok, pure_eq_error, and_false,
    exists_false, or_false] at failed
  obtain tooLate | ⟨deadline, chosen, failed⟩ := failed
  · exact .inl (revokedEnd_error tooLate)
  have ahead := revokedEnd_ok recent chosen
  obtain ⟨-, rfl⟩ | ⟨-, -, ⟨-, rfl⟩ | ⟨-, ⟨-, sooner⟩, failed⟩⟩ := failed
  · simp
  · simp
  have mono := schedule.vested_mono sooner
  have enough := returnable deadline ahead sooner
  obtain ⟨-, rfl⟩ | ⟨-, -, ⟨short, -⟩ | ⟨-, ⟨-, rfl⟩, unpaid⟩⟩ := failed
  · simp
  · omega
  · obtain rfl | rfl := returnTokens_error enough unpaid
    · simp
    · simp

end Tlc

end RiverProtocol
