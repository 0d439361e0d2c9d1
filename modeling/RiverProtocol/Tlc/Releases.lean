import RiverProtocol.Tlc.Solvency

/-!
# The total released does not depend on the path

What a schedule has released after a release is what its terms make due at
that time, whatever was released before.  The invariant here needs no bound on
the time.
-/

namespace RiverProtocol

open Checked Outcome Balances

namespace Tlc

variable {tlc after : Tlc} {escrow : Nat → Address} {now index : Nat}
  {schedule : VestingSchedule} {revertIfLocked ignored : Bool}

/-- What is due past the end of the lock, by the contract's own
computations. -/
def VestingSchedule.Entitled (schedule : VestingSchedule) (ignored : Bool)
    (now due : Nat) : Prop :=
  ∃ lockEnd vestedAmount,
    (uadd64 schedule.start schedule.lockDuration : Except Error Nat) =
      .ok lockEnd ∧
    lockEnd ≤ now ∧
    schedule.computeVestedAmount (LibUint256.min now schedule.endTime) =
      .ok vestedAmount ∧
    if ignored then due = vestedAmount
    else ∃ globalUnlocked,
      computeGlobalUnlocked schedule.amount (now - lockEnd) =
        .ok globalUnlocked ∧
      due = LibUint256.min vestedAmount globalUnlocked

/-- At most one amount is due at a time. -/
theorem VestingSchedule.Entitled.unique {due other : Nat}
    (entitled : schedule.Entitled ignored now due)
    (also : schedule.Entitled ignored now other) : due = other := by
  obtain ⟨lockEnd, vested, locked, -, vesting, amount⟩ := entitled
  obtain ⟨otherEnd, otherVested, otherLocked, -, otherVesting,
    otherAmount⟩ := also
  obtain rfl := Except.ok.inj (locked.symm.trans otherLocked)
  obtain rfl := Except.ok.inj (vesting.symm.trans otherVesting)
  cases ignored with
  | true =>
      rw [if_pos rfl] at amount otherAmount
      exact amount.trans otherAmount.symm
  | false =>
      rw [if_neg Bool.false_ne_true] at amount otherAmount
      obtain ⟨unlocked, unlocking, rfl⟩ := amount
      obtain ⟨otherUnlocked, otherUnlocking, rfl⟩ := otherAmount
      obtain rfl := Except.ok.inj (unlocking.symm.trans otherUnlocking)
      rfl

/-- Below 64 bits of time the computations return once the lock has ended. -/
theorem VestingSchedule.Accepted.entitled (accepted : schedule.Accepted)
    (recent : now < uint64Limit) (unlocks : schedule.lockEnd ≤ now) :
    schedule.Entitled ignored now (schedule.due ignored now) := by
  have fits : schedule.start + schedule.lockDuration < uint64Limit :=
    unlocks.trans_lt recent
  refine ⟨schedule.lockEnd, _, uadd64_of_lt fits, unlocks,
    accepted.computeVestedAmount_eq, ?_⟩
  rw [LibUint256.min_eq]
  cases ignored with
  | true =>
      rw [if_pos rfl]
      exact min_eq_left VestingSchedule.vested_le_amount
  | false =>
      rw [if_neg Bool.false_ne_true]
      refine ⟨_, computeGlobalUnlocked_eq accepted.amount_le (by omega), ?_⟩
      rw [LibUint256.min_eq]
      rfl

theorem deadline_eq (schedule : VestingSchedule) (now : Nat) :
    (if now > schedule.endTime then schedule.endTime else now) =
      LibUint256.min now schedule.endTime := by
  unfold LibUint256.min
  split <;> omega

/-- A positive releasable amount is what is due and not released yet. -/
theorem entitled_of_releasable {releasable : Nat}
    (computed : tlc.computeReleasableAmount schedule revertIfLocked now
      index = .ok releasable)
    (positive : 0 < releasable) :
    schedule.Entitled (tlc.ignoreGlobalUnlockSchedule index) now
      (schedule.releasedAmount + releasable) := by
  unfold computeReleasableAmount at computed
  simp only [bind_eq_ok] at computed
  obtain ⟨lockEnd, locked, computed⟩ := computed
  split at computed
  · split at computed
    · cases computed
    · cases computed
      exact absurd positive (Nat.lt_irrefl 0)
  · rename_i unlocks
    rw [deadline_eq] at computed
    simp only [bind_eq_ok] at computed
    obtain ⟨vested, vesting, computed⟩ := computed
    refine ⟨lockEnd, vested, locked, Nat.le_of_not_lt unlocks, vesting, ?_⟩
    split at computed
    · rename_i more
      split at computed
      · rename_i ignoring
        cases computed
        rw [if_pos ignoring]
        omega
      · rename_i limited
        simp only [bind_eq_ok, usub_eq_ok, require_eq_ok] at computed
        obtain ⟨-, ⟨-, rfl⟩, unlocked, unlocking, -, -, enough, rfl⟩ :=
          computed
        rw [if_neg limited]
        exact ⟨unlocked, unlocking, by omega⟩
    · cases computed
      exact absurd positive (Nat.lt_irrefl 0)

/-- Where more is due than was released, the difference is releasable. -/
theorem VestingSchedule.Entitled.releasable_of_lt {due : Nat}
    (entitled : schedule.Entitled (tlc.ignoreGlobalUnlockSchedule index) now
      due)
    (more : schedule.releasedAmount < due) :
    tlc.computeReleasableAmount schedule revertIfLocked now index =
      .ok (due - schedule.releasedAmount) := by
  obtain ⟨lockEnd, vested, locked, unlocks, vesting, amount⟩ := entitled
  unfold computeReleasableAmount
  rw [locked, ok_bind, if_neg (Nat.not_lt.mpr unlocks), deadline_eq, vesting]
  split at amount
  · rename_i ignoring
    subst amount
    rw [ok_bind, if_pos more, if_pos ignoring]
    rfl
  · rename_i limited
    obtain ⟨unlocked, unlocking, rfl⟩ := amount
    rw [LibUint256.min_eq] at more ⊢
    have vestedMore := more.trans_le (min_le_left _ _)
    have unlockedMore := more.trans_le (min_le_right _ _)
    rw [ok_bind, if_pos vestedMore, if_neg limited, usub_of_le unlocks,
      ok_bind, unlocking, ok_bind, require_of unlockedMore.le, ok_bind,
      LibUint256.min_eq]
    exact usub_of_le more.le

/-- Nothing is releasable exactly where nothing more is due. -/
theorem VestingSchedule.Entitled.releasable_iff {due : Nat}
    (entitled : schedule.Entitled (tlc.ignoreGlobalUnlockSchedule index) now
      due) :
    ((∃ failure, tlc.computeReleasableAmount schedule revertIfLocked now
        index = .error failure) ∨
      tlc.computeReleasableAmount schedule revertIfLocked now index =
        .ok 0) ↔ due ≤ schedule.releasedAmount := by
  constructor
  · intro nothing
    by_contra more
    rw [Nat.not_le] at more
    rw [entitled.releasable_of_lt more] at nothing
    rcases nothing with ⟨failure, failed⟩ | none
    · exact nomatch failed
    · have zero := Except.ok.inj none
      omega
  · intro covered
    -- a positive amount would make more due than was released
    cases computed : tlc.computeReleasableAmount schedule revertIfLocked now
        index with
    | error failure => exact .inl ⟨failure, rfl⟩
    | ok releasable =>
        cases releasable with
        | zero => exact .inr rfl
        | succ fewer =>
            have same := entitled.unique
              (entitled_of_releasable computed (Nat.succ_pos fewer))
            omega

/-- The schedules have accepted terms and record what was really released. -/
structure Tracked (world : World) : Prop where
  supply : total world.tlc.balanceOf = initialSupply
  accepted : ∀ (index : Nat) (schedule : VestingSchedule),
    world.tlc.vestingSchedules[index]? = some schedule → schedule.Accepted
  paid : ∀ (index : Nat) (schedule : VestingSchedule),
    world.tlc.vestingSchedules[index]? = some schedule →
    world.released index = schedule.releasedAmount
  unstarted : ∀ index, world.tlc.vestingSchedules.length ≤ index →
    world.released index = 0

namespace Tracked

variable {world before next : World} {sender account : Address}

theorem initial {start : Nat}
    (initialized : initTLCV1 account = .ok tlc) :
    Tracked (World.initial tlc start) := by
  simp only [initTLCV1, mint, bind_eq_ok, require_eq_ok, pure_eq_ok]
    at initialized
  obtain ⟨-, -, -, -, rfl⟩ := initialized
  have empty : total fresh.balanceOf = 0 := Finset.sum_const_zero
  refine ⟨?_, ?_, ?_, fun _ _ => rfl⟩
  · simp only [World.initial, total_credit, empty, Nat.zero_add]
  · intro index schedule opened
    cases opened
  · intro index schedule opened
    cases opened

theorem frame (tracked : Tracked before)
    (supply : total next.tlc.balanceOf = total before.tlc.balanceOf)
    (schedules : next.tlc.vestingSchedules = before.tlc.vestingSchedules)
    (released : next.released = before.released) : Tracked next := by
  refine ⟨supply.trans tracked.supply, ?_, ?_, ?_⟩
  · rw [schedules]
    exact tracked.accepted
  · rw [schedules, released]
    exact tracked.paid
  · rw [schedules, released]
    exact tracked.unstarted

/-- A schedule is replaced by one with as much released as was paid. -/
theorem updated {later : VestingSchedule} (tracked : Tracked before)
    (found : before.tlc.vestingSchedules[index]? = some schedule)
    (supply : total next.tlc.balanceOf = total before.tlc.balanceOf)
    (schedules : next.tlc.vestingSchedules =
      before.tlc.vestingSchedules.set index later)
    (accepted : later.Accepted)
    (paid : next.released index = later.releasedAmount)
    (others : ∀ other, other ≠ index →
      next.released other = before.released other) : Tracked next := by
  have inside := (List.getElem?_eq_some_iff.mp found).1
  refine ⟨supply.trans tracked.supply, ?_, ?_, ?_⟩
  · intro other reached opened
    rw [schedules] at opened
    rcases Lists.getElem?_set_cases opened with ⟨-, old⟩ | ⟨rfl, rfl⟩
    · exact tracked.accepted other reached old
    · exact accepted
  · intro other reached opened
    rw [schedules] at opened
    rcases Lists.getElem?_set_cases opened with ⟨apart, old⟩ | ⟨rfl, rfl⟩
    · rw [others other apart]
      exact tracked.paid other reached old
    · exact paid
  · intro other outside
    rw [schedules, List.length_set] at outside
    rw [others other (inside.trans_le outside).ne']
    exact tracked.unstarted other outside

theorem created {creator : Address} {parameters : NewSchedule}
    (tracked : Tracked world)
    (returned : world.tlc.createVestingSchedule escrow world.now creator
      parameters = .ok (tlc, index)) : Tracked { world with tlc } := by
  obtain ⟨start, delegates, held, period, cliff, fits, rfl, rfl⟩ :=
    createVestingSchedule_ok returned
  have bounded : parameters.amount ≤ initialSupply := by
    rw [← tracked.supply]
    exact held.trans (le_total _ _)
  refine ⟨(total_move held).trans tracked.supply, ?_, ?_, ?_⟩
  · intro other reached opened
    rcases Lists.getElem?_concat_cases opened with old | ⟨-, rfl⟩
    · exact tracked.accepted other reached old
    · exact ⟨period, cliff, fits, le_rfl, bounded⟩
  · intro other reached opened
    rcases Lists.getElem?_concat_cases opened with old | ⟨rfl, rfl⟩
    · exact tracked.paid other reached old
    · exact tracked.unstarted _ le_rfl
  · intro other outside
    rw [List.length_append] at outside
    exact tracked.unstarted other (by omega)

theorem revoked {newEnd returnedAmount : Nat} (tracked : Tracked world)
    (returned : world.tlc.revokeVestingSchedule escrow world.now sender
      index newEnd = .ok (tlc, returnedAmount)) {credited : Nat → Nat} :
    Tracked { world with tlc, returned := credited } := by
  obtain ⟨schedule, found⟩ := revokeVestingSchedule_found returned
  have accepted := tracked.accepted index schedule found
  obtain ⟨deadline, -, -, sooner, -, -, enough, rfl⟩ :=
    revokeVestingSchedule_ok found accepted returned
  refine tracked.updated found (total_move enough) rfl ?_
    (tracked.paid index schedule found) fun _ _ => rfl
  obtain ⟨period, cliff, fits, ends, bounded⟩ := accepted
  exact ⟨period, cliff, fits, sooner.trans ends, bounded⟩

theorem received_released {releasable : Nat} (user : User escrow sender)
    (returned : world.tlc.releaseVestingSchedule escrow world.now sender
      index = .ok (tlc, releasable)) :
    received world.tlc tlc sender = releasable := by
  obtain ⟨schedule, found⟩ := releaseVestingSchedule_found returned
  obtain ⟨-, -, -, -, rfl⟩ := releaseVestingSchedule_effect found returned
  have credited : move world.tlc.balanceOf (escrow index) sender releasable
      sender = world.tlc.balanceOf sender + releasable :=
    move_recipient (user index)
  rw [received]
  simp only [credited, Nat.add_sub_cancel_left]

theorem released {releasable : Nat} (tracked : Tracked world)
    (user : User escrow sender)
    (returned : world.tlc.releaseVestingSchedule escrow world.now sender
      index = .ok (tlc, releasable)) :
    Tracked { world with
      tlc
      released := credit world.released index
        (received world.tlc tlc sender) } := by
  rw [received_released user returned]
  obtain ⟨schedule, found⟩ := releaseVestingSchedule_found returned
  obtain ⟨-, -, -, enough, rfl⟩ :=
    releaseVestingSchedule_effect found returned
  have accepted := tracked.accepted index schedule found
  refine tracked.updated found (total_move enough) rfl ?_ ?_ ?_
  · obtain ⟨period, cliff, fits, ends, bounded⟩ := accepted
    exact ⟨period, cliff, fits, ends, bounded⟩
  · simp only [credit_self, tracked.paid index schedule found]
  · intro other apart
    exact credit_of_ne apart

/-- Every call keeps the books, at any time. -/
theorem step (tracked : Tracked before) (step : Step escrow before next) :
    Tracked next := by
  cases step with
  | pass passed => exact tracked.frame rfl rfl rfl
  | transfer user returned =>
      obtain ⟨enough, rfl⟩ := transfer_ok returned
      exact tracked.frame (total_move enough) rfl rfl
  | delegate user => exact tracked.frame rfl rfl rfl
  | create user fresh returned => exact tracked.created returned
  | revoke user returned => exact tracked.revoked returned
  | release user returned => exact tracked.released user returned
  | delegateEscrow user returned =>
      simp only [delegateVestingEscrow, bind_eq_ok, require_eq_ok,
        pure_eq_ok] at returned
      obtain ⟨-, -, -, -, rfl⟩ := returned
      exact tracked.frame rfl rfl rfl

theorem of_reachable (reachable : Reachable escrow world) :
    Tracked world := by
  obtain ⟨account, tlc, now, user, initialized, run⟩ := reachable
  induction run with
  | refl => exact initial initialized
  | tail _ step induction => exact induction.step step

end Tracked

variable {world : World}

theorem World.entitled_of_release {sender : Address} {releasable : Nat}
    (reachable : Reachable escrow world)
    (found : world.tlc.vestingSchedules[index]? = some schedule)
    (user : User escrow sender)
    (returned : world.tlc.releaseVestingSchedule escrow world.now sender
      index = .ok (tlc, releasable)) :
    schedule.Entitled (world.tlc.ignoreGlobalUnlockSchedule index) world.now
      (world.released index + received world.tlc tlc sender) := by
  rw [Tracked.received_released user returned,
    (Tracked.of_reachable reachable).paid index schedule found]
  obtain ⟨-, computed, positive, -, -⟩ :=
    releaseVestingSchedule_effect found returned
  exact entitled_of_releasable computed positive

/-- After a release the schedule has released what its terms make due, in
whatever steps it did so before, and a release is refused or worth nothing
exactly where nothing more is due. -/
theorem release_path_independent (reachable : Reachable escrow world)
    (found : world.tlc.vestingSchedules[index]? = some schedule) :
    (∀ sender tlc releasable, User escrow sender →
      world.tlc.releaseVestingSchedule escrow world.now sender index =
        .ok (tlc, releasable) →
      schedule.Entitled (world.tlc.ignoreGlobalUnlockSchedule index)
        world.now (world.released index + received world.tlc tlc sender)) ∧
    (∀ due, schedule.Entitled (world.tlc.ignoreGlobalUnlockSchedule index)
        world.now due →
      ((∃ failure, world.tlc.computeVestingReleasableAmount world.now index =
          .error failure) ∨
        world.tlc.computeVestingReleasableAmount world.now index = .ok 0 ↔
          due ≤ world.released index)) ∧
    (world.now < uint64Limit → schedule.lockEnd ≤ world.now →
      schedule.Entitled (world.tlc.ignoreGlobalUnlockSchedule index) world.now
        (schedule.due (world.tlc.ignoreGlobalUnlockSchedule index)
          world.now) ∧
      world.released index ≤ schedule.due
        (world.tlc.ignoreGlobalUnlockSchedule index) world.now) ∧
    ∀ (otherEscrow : Nat → Address) (other : World) (otherIndex : Nat)
      (otherSchedule : VestingSchedule), Reachable otherEscrow other →
      other.tlc.vestingSchedules[otherIndex]? = some otherSchedule →
      otherSchedule = { schedule with
        releasedAmount := otherSchedule.releasedAmount } →
      other.tlc.ignoreGlobalUnlockSchedule otherIndex =
        world.tlc.ignoreGlobalUnlockSchedule index →
      other.now = world.now →
      ∀ sender otherSender tlc otherTlc releasable otherReleasable,
        User escrow sender → User otherEscrow otherSender →
        world.tlc.releaseVestingSchedule escrow world.now sender index =
          .ok (tlc, releasable) →
        other.tlc.releaseVestingSchedule otherEscrow other.now otherSender
          otherIndex = .ok (otherTlc, otherReleasable) →
        world.released index + received world.tlc tlc sender =
          other.released otherIndex +
            received other.tlc otherTlc otherSender := by
  have paid := (Tracked.of_reachable reachable).paid index schedule found
  refine ⟨fun sender tlc releasable user returned =>
    World.entitled_of_release reachable found user returned, ?_, ?_, ?_⟩
  · intro due entitled
    rw [computeVestingReleasableAmount, getVestingSchedule_of found, ok_bind,
      paid]
    exact entitled.releasable_iff
  · intro recent unlocks
    have backed := (Sound.of_reachable reachable recent).backed index schedule
      found
    refine ⟨backed.accepted.entitled recent unlocks, ?_⟩
    rw [paid]
    exact backed.keeps.released_le_due
  · intro otherEscrow other otherIndex otherSchedule otherReachable
      otherFound same flag now sender otherSender tlc otherTlc releasable
      otherReleasable user otherUser returned otherReturned
    have entitled := World.entitled_of_release reachable found user returned
    have otherEntitled := World.entitled_of_release otherReachable otherFound
      otherUser otherReturned
    rw [flag, now, same] at otherEntitled
    exact entitled.unique otherEntitled

section Sample

/-- A first release at 160 and a second at 250 release what one at 250
would. -/
theorem release_path_independent_sample : ∃ world schedule tlc,
    sampleReleased 160 = .ok world ∧
      world.tlc.vestingSchedules[0]? = some schedule ∧
      world.tlc.releaseVestingSchedule sampleEscrow 250 grantee 0 =
        .ok (tlc, 500) ∧
      schedule.Entitled true 250 1000 := by
  have checked : returns (sampleReleased 160) (fun world =>
      (world.now = 160 ∧ world.tlc.vestingSchedules.length = 1 ∧
        world.released 0 = 500 ∧
        world.tlc.ignoreGlobalUnlockSchedule 0 = true : Bool) &&
      returns (world.tlc.releaseVestingSchedule sampleEscrow 250 grantee 0)
        (fun result =>
          received world.tlc result.1 grantee = 500 ∧ result.2 = 500)) =
      true := by
    decide +kernel
  obtain ⟨world, returned, facts⟩ := returns_iff.mp checked
  obtain ⟨books, releasing⟩ := Bool.and_eq_true_iff.mp facts
  obtain ⟨now, length, released, flag⟩ := of_decide_eq_true books
  obtain ⟨⟨tlc, releasable⟩, second, amounts⟩ := returns_iff.mp releasing
  obtain ⟨moved, rfl⟩ := of_decide_eq_true amounts
  have reachable : Reachable sampleEscrow { world with now := 250 } :=
    (sampleReleased_reachable (by decide) returned).tail
      (.pass (by omega))
  have inside : 0 < world.tlc.vestingSchedules.length := by omega
  have found : world.tlc.vestingSchedules[0]? =
      some world.tlc.vestingSchedules[0] := List.getElem?_eq_getElem inside
  refine ⟨world, _, tlc, returned, found, second, ?_⟩
  have entitled := (release_path_independent reachable found).1 grantee tlc
    500 (sample_user (by decide)) second
  rw [← flag]
  simpa only [moved, released] using entitled

end Sample

end Tlc

end RiverProtocol
