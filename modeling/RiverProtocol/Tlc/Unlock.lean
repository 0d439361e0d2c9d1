import RiverProtocol.Tlc.Releases

/-!
# How much the global unlock schedule unlocks

A twenty-fourth of the amount is rounded down before it is taken once a month.
What is left of the amount after twenty-four months waits for further months,
and an amount below twenty-four for ever.
-/

namespace RiverProtocol

open Checked Outcome Balances

namespace Tlc

/-- The months beyond the twenty-fourth unlock what is left of the amount. -/
theorem amount_le_unlocked_iff {amount elapsed : Nat}
    (passed : 24 * unlockMonth ≤ elapsed) :
    amount ≤ unlocked amount elapsed ↔
      amount % 24 ≤
        amount / 24 * ((elapsed - 24 * unlockMonth) / unlockMonth) := by
  obtain ⟨further, rfl⟩ := Nat.exists_eq_add_of_le passed
  have month : 0 < unlockMonth := by decide
  have months : (24 * unlockMonth + further) / unlockMonth =
      24 + further / unlockMonth := by
    rw [Nat.mul_comm]
    exact Nat.mul_add_div month 24 further
  have partition := Nat.div_add_mod amount 24
  rw [unlocked, le_min_iff, months, Nat.add_sub_cancel_left, Nat.mul_add]
  constructor
  · rintro ⟨-, enough⟩
    omega
  · intro enough
    exact ⟨le_rfl, by omega⟩

/-- Only a multiple of twenty-four is unlocked at every time from
twenty-four months on. -/
theorem always_unlocked_iff {amount : Nat} :
    (∀ elapsed, 24 * unlockMonth ≤ elapsed →
      amount ≤ unlocked amount elapsed) ↔ 24 ∣ amount := by
  constructor
  · intro always
    have enough := (amount_le_unlocked_iff le_rfl).mp (always _ le_rfl)
    rw [Nat.sub_self, Nat.zero_div, Nat.mul_zero] at enough
    exact Nat.dvd_of_mod_eq_zero (Nat.le_zero.mp enough)
  · intro whole elapsed passed
    apply (amount_le_unlocked_iff passed).mpr
    rw [Nat.mod_eq_zero_of_dvd whole]
    exact Nat.zero_le _

variable {tlc : Tlc} {escrow : Nat → Address} {world : World} {index : Nat}
  {schedule : VestingSchedule} {sender : Address} {releasable : Nat}

/-- At `now` the global unlock schedule unlocks the amount. -/
def VestingSchedule.Unlocked (schedule : VestingSchedule) (now : Nat) : Prop :=
  ∃ globalUnlocked,
    computeGlobalUnlocked schedule.amount (now - schedule.lockEnd) =
      .ok globalUnlocked ∧
    schedule.amount ≤ globalUnlocked

theorem VestingSchedule.Entitled.fits {ignored : Bool} {now due : Nat}
    (entitled : schedule.Entitled ignored now due) :
    schedule.lockEnd < uint64Limit := by
  obtain ⟨lockEnd, -, locked, -⟩ := entitled
  exact (uadd64_eq_ok.mp locked).1

/-- Once the schedule has ended and its amount is unlocked, what is vested at
the end is due. -/
theorem VestingSchedule.Accepted.entitled_ended {ignored : Bool} {now : Nat}
    (accepted : schedule.Accepted)
    (fits : schedule.lockEnd < uint64Limit)
    (ended : schedule.endTime ≤ now) (unlocks : schedule.lockEnd ≤ now)
    (opens : ignored = true ∨ schedule.Unlocked now) :
    schedule.Entitled ignored now (schedule.vested schedule.endTime) := by
  refine ⟨schedule.lockEnd, schedule.vested schedule.endTime,
    uadd64_of_lt fits, unlocks, ?_, ?_⟩
  · rw [LibUint256.min_eq, min_eq_right ended]
    exact accepted.computeVestedAmount_eq
  · cases ignored with
    | true =>
        rw [if_pos rfl]
    | false =>
        obtain ⟨globalUnlocked, computed, enough⟩ :=
          opens.resolve_left Bool.false_ne_true
        rw [if_neg Bool.false_ne_true]
        refine ⟨globalUnlocked, computed, ?_⟩
        rw [LibUint256.min_eq]
        exact (min_eq_left
          (VestingSchedule.vested_le_amount.trans enough)).symm

/-- Then what is vested at the end and not released yet is releasable. -/
theorem VestingSchedule.Accepted.releasable_ended {now : Nat}
    {revertIfLocked : Bool} (accepted : schedule.Accepted)
    (fits : schedule.lockEnd < uint64Limit)
    (ended : schedule.endTime ≤ now) (unlocks : schedule.lockEnd ≤ now)
    (opens : tlc.ignoreGlobalUnlockSchedule index = true ∨
      schedule.Unlocked now) :
    tlc.computeReleasableAmount schedule revertIfLocked now index =
      .ok (schedule.vested schedule.endTime - schedule.releasedAmount) := by
  by_cases more : schedule.releasedAmount < schedule.vested schedule.endTime
  · have entitled := accepted.entitled_ended fits ended unlocks opens
    exact entitled.releasable_of_lt more
  · have deadline : (if now > schedule.endTime then schedule.endTime
        else now) = schedule.endTime := by
      split <;> omega
    have present : ¬ now < schedule.start + schedule.lockDuration :=
      Nat.not_lt.mpr unlocks
    rw [computeReleasableAmount, uadd64_of_lt fits, ok_bind,
      if_neg present, deadline,
      accepted.computeVestedAmount_eq, ok_bind, if_neg more,
      Nat.sub_eq_zero_of_le (Nat.le_of_not_lt more)]
    rfl

/-- It is what the escrow holds, donations apart. -/
theorem Backed.releasable_eq (backed : Backed escrow world index schedule)
    (recent : world.now < uint64Limit)
    (ended : schedule.endTime ≤ world.now)
    (unlocks : schedule.lockEnd ≤ world.now)
    (opens : schedule.Unlocked world.now) {revertIfLocked : Bool} :
    world.tlc.computeReleasableAmount schedule revertIfLocked world.now
        index =
      .ok (world.tlc.balanceOf (escrow index) -
        world.donated (escrow index)) := by
  have held : world.tlc.balanceOf (escrow index) -
      world.donated (escrow index) + schedule.releasedAmount =
        schedule.vested schedule.endTime := backed.keeps.backed
  rw [backed.accepted.releasable_ended (unlocks.trans_lt recent) ended
    unlocks (.inr opens), ← held, Nat.add_sub_cancel_right]

/-- One release then leaves the donations only. -/
theorem Backed.emptied (backed : Backed escrow world index schedule)
    (found : world.tlc.vestingSchedules[index]? = some schedule)
    (recent : world.now < uint64Limit)
    (ended : schedule.endTime ≤ world.now)
    (unlocks : schedule.lockEnd ≤ world.now)
    (opens : schedule.Unlocked world.now) (user : User escrow sender)
    (returned : world.tlc.releaseVestingSchedule escrow world.now sender
      index = .ok (tlc, releasable)) :
    tlc.balanceOf (escrow index) = world.donated (escrow index) := by
  obtain ⟨-, computed, -, enough, rfl⟩ :=
    releaseVestingSchedule_effect found returned
  rw [backed.releasable_eq recent ended unlocks opens]
    at computed
  obtain rfl := Except.ok.inj computed
  have covered := backed.covered
  have debited : move world.tlc.balanceOf (escrow index) sender
      (world.tlc.balanceOf (escrow index) - world.donated (escrow index))
      (escrow index) = _ := move_sender (user index).symm
  simp only [debited]
  omega

/-- What is left of the amount is unlocked by the months beyond the
twenty-fourth, and the product of the computation is a word. -/
def VestingSchedule.RestUnlocked (schedule : VestingSchedule) (now : Nat) :
    Prop :=
  schedule.amount % 24 ≤
      schedule.amount / 24 *
        ((now - schedule.lockEnd - 24 * unlockMonth) / unlockMonth) ∧
    schedule.amount / 24 * ((now - schedule.lockEnd) / unlockMonth) <
      wordLimit

theorem VestingSchedule.unlocked_iff {now : Nat}
    (passed : schedule.lockEnd + 24 * unlockMonth ≤ now) :
    schedule.Unlocked now ↔ schedule.RestUnlocked now := by
  have elapsed : 24 * unlockMonth ≤ now - schedule.lockEnd := by omega
  rw [RestUnlocked, ← amount_le_unlocked_iff elapsed]
  constructor
  · rintro ⟨globalUnlocked, computed, enough⟩
    obtain ⟨fits, rfl⟩ := computeGlobalUnlocked_eq_ok.mp computed
    exact ⟨enough, fits⟩
  · rintro ⟨enough, fits⟩
    exact ⟨_, computeGlobalUnlocked_eq_ok.mpr ⟨fits, rfl⟩, enough⟩

/-- From the end and twenty-four months past the lock on, the amount is
unlocked and a release completes what is vested at the end exactly where the
further months unlock what is left of the amount. -/
theorem global_unlock_completes_iff (reachable : Reachable escrow world)
    (found : world.tlc.vestingSchedules[index]? = some schedule)
    (ended : schedule.endTime ≤ world.now)
    (passed : schedule.lockEnd + 24 * unlockMonth ≤ world.now) :
    ((schedule.Unlocked world.now ∧
      ∀ sender tlc releasable, User escrow sender →
        world.tlc.releaseVestingSchedule escrow world.now sender index =
          .ok (tlc, releasable) →
        schedule.computeVestedAmount schedule.endTime =
          .ok (world.released index + received world.tlc tlc sender)) ↔
      schedule.RestUnlocked world.now) ∧
    (world.now < uint64Limit → schedule.RestUnlocked world.now →
      world.tlc.computeVestingReleasableAmount world.now index =
        .ok (world.tlc.balanceOf (escrow index) -
          world.donated (escrow index)) ∧
      ∀ sender tlc releasable, User escrow sender →
        world.tlc.releaseVestingSchedule escrow world.now sender index =
          .ok (tlc, releasable) →
        tlc.balanceOf (escrow index) = world.donated (escrow index)) ∧
    ((∀ elapsed, 24 * unlockMonth ≤ elapsed →
      schedule.amount ≤ unlocked schedule.amount elapsed) ↔
        24 ∣ schedule.amount) := by
  have accepted :=
    (Tracked.of_reachable reachable).accepted index schedule found
  have exactUnlock := VestingSchedule.unlocked_iff passed
  have unlocks : schedule.lockEnd ≤ world.now := by omega
  refine ⟨⟨fun completes => exactUnlock.mp completes.1, ?_⟩, ?_,
    always_unlocked_iff⟩
  · intro rest
    have opens := exactUnlock.mpr rest
    refine ⟨opens, fun sender tlc releasable user returned => ?_⟩
    have entitled := World.entitled_of_release reachable found user returned
    rw [entitled.unique (accepted.entitled_ended entitled.fits ended unlocks
      (.inr opens))]
    exact accepted.computeVestedAmount_eq
  · intro recent rest
    have opens := exactUnlock.mpr rest
    have backed :=
      (Sound.of_reachable reachable recent).backed index schedule found
    refine ⟨?_, fun sender tlc releasable user returned =>
      backed.emptied found recent ended unlocks opens user returned⟩
    rw [computeVestingReleasableAmount, getVestingSchedule_of found, ok_bind]
    exact backed.releasable_eq recent ended unlocks opens

section Sample

/-- The sample terms under the global unlock schedule. -/
def sampleLimited (amount : Nat) : NewSchedule :=
  { sampleSchedule with amount, ignoreGlobalUnlockSchedule := false }

/-- Twenty-four months after the lock of the sample ends. -/
def sampleUnlock : Nat := 100 + 24 * unlockMonth

/-- A limited schedule is created at time 1, and all months pass. -/
def sampleUnlocked (amount : Nat) : Except Error World := do
  let tlc ← initTLCV1 grantor
  let (tlc, _) ← tlc.createVestingSchedule sampleEscrow 1 grantor
    (sampleLimited amount)
  return World.initial tlc sampleUnlock

theorem sampleUnlocked_reachable {amount : Nat}
    (returned : sampleUnlocked amount = .ok world) :
    Reachable sampleEscrow world := by
  simp only [sampleUnlocked, bind_eq_ok, pure_eq_ok, Prod.exists] at returned
  obtain ⟨tlc, initialized, createdTlc, index, created, rfl⟩ := returned
  exact sample_created (by decide) initialized created

/-- Of 1200 tokens all are released after twenty-four months. -/
theorem global_unlock_completes_iff_sample : ∃ world schedule tlc,
    sampleUnlocked 1200 = .ok world ∧
      world.tlc.vestingSchedules[0]? = some schedule ∧
      world.tlc.ignoreGlobalUnlockSchedule 0 = false ∧
      schedule.RestUnlocked world.now ∧
      world.tlc.releaseVestingSchedule sampleEscrow world.now grantee 0 =
        .ok (tlc, 1200) ∧
      tlc.balanceOf (sampleEscrow 0) = 0 := by
  have checked : returns (sampleUnlocked 1200) (fun world =>
      (world.now = sampleUnlock ∧
        world.tlc.ignoreGlobalUnlockSchedule 0 = false ∧
        world.donated (sampleEscrow 0) = 0 ∧
        world.tlc.vestingSchedules.map (fun schedule =>
          (schedule.amount, schedule.endTime, schedule.lockEnd)) =
            [(1200, 200, 100)] : Bool) &&
      returns (world.tlc.releaseVestingSchedule sampleEscrow world.now
        grantee 0) (fun result => result.2 = 1200)) = true := by
    decide +kernel
  obtain ⟨world, returned, facts⟩ := returns_iff.mp checked
  obtain ⟨terms, releasing⟩ := Bool.and_eq_true_iff.mp facts
  obtain ⟨now, flag, undonated, terms⟩ := of_decide_eq_true terms
  obtain ⟨⟨tlc, releasable⟩, released, amount⟩ := returns_iff.mp releasing
  obtain rfl := of_decide_eq_true amount
  obtain ⟨schedule, rest, schedules, terms, -⟩ :=
    List.map_eq_cons_iff.mp terms
  simp only [Prod.mk.injEq] at terms
  obtain ⟨amount, ended, lockEnd⟩ := terms
  have found : world.tlc.vestingSchedules[0]? = some schedule := by
    rw [schedules]
    rfl
  have opens : schedule.RestUnlocked world.now := by
    rw [VestingSchedule.RestUnlocked, amount, lockEnd, now]
    decide
  obtain ⟨-, emptied, -⟩ := global_unlock_completes_iff
    (sampleUnlocked_reachable returned) found
    (by rw [ended, now]; decide) (by rw [lockEnd, now]; decide)
  obtain ⟨-, empties⟩ := emptied (by rw [now]; decide) opens
  refine ⟨world, schedule, tlc, returned, found, flag, opens, released, ?_⟩
  rw [empties grantee tlc 1200 (sample_user (by decide)) released, undonated]

/-- Of 1000 tokens 984 are released after twenty-four months, and nothing
more is releasable then. -/
theorem global_unlock_keeps_rest : ∃ world schedule tlc,
    sampleUnlocked 1000 = .ok world ∧ Reachable sampleEscrow world ∧
      world.tlc.vestingSchedules[0]? = some schedule ∧
      world.tlc.ignoreGlobalUnlockSchedule 0 = false ∧
      schedule.endTime ≤ world.now ∧
      schedule.lockEnd + 24 * unlockMonth ≤ world.now ∧
      schedule.computeVestedAmount schedule.endTime = .ok 1000 ∧
      computeGlobalUnlocked schedule.amount
        (world.now - schedule.lockEnd) = .ok 984 ∧
      ¬ schedule.Unlocked world.now ∧
      world.tlc.releaseVestingSchedule sampleEscrow world.now grantee 0 =
        .ok (tlc, 984) ∧
      tlc.balanceOf (sampleEscrow 0) = 16 ∧
      tlc.releaseVestingSchedule sampleEscrow world.now grantee 0 =
        .error .zeroReleasableAmount := by
  have checked : returns (sampleUnlocked 1000) (fun world =>
      (world.tlc.ignoreGlobalUnlockSchedule 0 = false ∧
        (∀ schedule ∈ world.tlc.vestingSchedules,
          schedule.amount = 1000 ∧ schedule.endTime ≤ world.now ∧
            schedule.lockEnd + 24 * unlockMonth ≤ world.now ∧
            returns (schedule.computeVestedAmount schedule.endTime)
              (· = 1000) = true ∧
            returns (computeGlobalUnlocked schedule.amount
              (world.now - schedule.lockEnd)) (· = 984) = true) ∧
        world.tlc.vestingSchedules.length = 1 : Bool) &&
      returns (world.tlc.releaseVestingSchedule sampleEscrow world.now
        grantee 0) (fun result =>
          result.2 = 984 ∧ result.1.balanceOf (sampleEscrow 0) = 16 ∧
            fails (result.1.releaseVestingSchedule sampleEscrow world.now
              grantee 0) .zeroReleasableAmount = true)) = true := by
    decide +kernel
  obtain ⟨world, returned, facts⟩ := returns_iff.mp checked
  obtain ⟨terms, releasing⟩ := Bool.and_eq_true_iff.mp facts
  obtain ⟨flag, terms, length⟩ := of_decide_eq_true terms
  obtain ⟨⟨tlc, releasable⟩, released, rest⟩ := returns_iff.mp releasing
  obtain ⟨rfl, kept, nothing⟩ := of_decide_eq_true rest
  have inside : 0 < world.tlc.vestingSchedules.length := by omega
  obtain ⟨amount, ended, passed, vesting, unlocking⟩ :=
    terms _ (List.getElem_mem inside)
  obtain ⟨vested, vesting, full⟩ := returns_iff.mp vesting
  obtain rfl := of_decide_eq_true full
  obtain ⟨unlocked, unlocking, short⟩ := returns_iff.mp unlocking
  obtain rfl := of_decide_eq_true short
  refine ⟨world, world.tlc.vestingSchedules[0], tlc, returned,
    sampleUnlocked_reachable returned, List.getElem?_eq_getElem inside, flag,
    ended, passed, vesting, unlocking, ?_, released, kept,
    fails_iff.mp nothing⟩
  rintro ⟨globalUnlocked, computed, enough⟩
  obtain rfl := Except.ok.inj (unlocking.symm.trans computed)
  omega

end Sample

end Tlc

end RiverProtocol
