import RiverProtocol.Tlc.Unlock

/-!
# The migration of the vesting schedules

The old schedules do not say what was released, so the migration takes what
the escrow lacks of the amount.  A revocation lowers the balance as well: what
it returned to the creator is then recorded as released to the beneficiary.
-/

namespace RiverProtocol

open Checked Outcome

namespace Tlc

/-- `VestingSchedulesV1.VestingSchedule` -/
structure VestingScheduleV1 where
  start : Nat
  /-- `end` -/
  endTime : Nat
  cliffDuration : Nat
  lockDuration : Nat
  duration : Nat
  periodDuration : Nat
  amount : Nat
  creator : Address
  beneficiary : Address
  revocable : Bool
  deriving DecidableEq, Repr

/-- The schedule in the present format. -/
def VestingScheduleV1.migrated (schedule : VestingScheduleV1)
    (releasedAmount : Nat) : VestingSchedule :=
  { start := schedule.start
    endTime := schedule.endTime
    lockDuration := schedule.lockDuration
    cliffDuration := schedule.cliffDuration
    duration := schedule.duration
    periodDuration := schedule.periodDuration
    amount := schedule.amount
    creator := schedule.creator
    beneficiary := schedule.beneficiary
    revocable := schedule.revocable
    releasedAmount }

/-- `VestingSchedulesV1.get`; the old schedules have a slot of their own. -/
def getVestingScheduleV1 (schedulesV1 : List VestingScheduleV1)
    (index : Nat) : Except Error VestingScheduleV1 :=
  fetch schedulesV1 index (.vestingScheduleNotFound index)

def migrateVestingScheduleFromV1 (tlc : Tlc)
    (schedulesV1 : List VestingScheduleV1) (index releasedAmount : Nat) :
    Except Error (Tlc × Nat) := do
  let scheduleV1 ← getVestingScheduleV1 schedulesV1 index
  let scheduleV2 := scheduleV1.migrated releasedAmount
  return ({ tlc with vestingSchedules := tlc.vestingSchedules ++ [scheduleV2] },
    tlc.vestingSchedules.length)

/-- The loop of `migrateVestingSchedulesFromV1ToV2` from `idx` on. -/
def migrateFrom (tlc : Tlc) (escrow : Nat → Address)
    (schedulesV1 : List VestingScheduleV1) (idx : Nat) :
    (remaining : Nat) → Except Error Tlc
  | 0 => return tlc
  | remaining + 1 => do
    let scheduleV1 ← getVestingScheduleV1 schedulesV1 idx
    let scheduleAmount := scheduleV1.amount
    let releasedAmount ← usub scheduleAmount
      (LibUint256.min (tlc.balanceOf (escrow idx)) scheduleAmount)
    let (tlc, _) ←
      tlc.migrateVestingScheduleFromV1 schedulesV1 idx releasedAmount
    tlc.migrateFrom escrow schedulesV1 (idx + 1) remaining

def migrateVestingSchedulesFromV1ToV2 (tlc : Tlc) (escrow : Nat → Address)
    (schedulesV1 : List VestingScheduleV1) : Except Error Tlc :=
  if tlc.vestingSchedules.length = 0 then
    tlc.migrateFrom escrow schedulesV1 0 schedulesV1.length
  else
    return tlc

/-- The schedule with as much released as the escrow lacks. -/
def VestingScheduleV1.reconstructed (schedule : VestingScheduleV1)
    (balance : Nat) : VestingSchedule :=
  schedule.migrated (schedule.amount - min balance schedule.amount)

variable {tlc : Tlc} {escrow : Nat → Address}
  {schedulesV1 : List VestingScheduleV1} {index idx remaining : Nat}

/-- One iteration appends one schedule. -/
theorem migrateFrom_succ {scheduleV1 : VestingScheduleV1}
    (found : schedulesV1[idx]? = some scheduleV1) :
    tlc.migrateFrom escrow schedulesV1 idx (remaining + 1) =
      migrateFrom { tlc with
        vestingSchedules := tlc.vestingSchedules ++
          [scheduleV1.reconstructed (tlc.balanceOf (escrow idx))] }
        escrow schedulesV1 (idx + 1) remaining := by
  have fetched : getVestingScheduleV1 schedulesV1 idx = .ok scheduleV1 :=
    fetch_eq_ok.mpr found
  have released : (usub scheduleV1.amount
      (LibUint256.min (tlc.balanceOf (escrow idx)) scheduleV1.amount) :
        Except Error Nat) =
      .ok (scheduleV1.amount -
        min (tlc.balanceOf (escrow idx)) scheduleV1.amount) := by
    rw [LibUint256.min_eq]
    exact usub_of_le (min_le_right _ _)
  simp only [migrateFrom, fetched, ok_bind, released,
    migrateVestingScheduleFromV1]
  rfl

/-- The loop appends the rest of the schedules in their order. -/
theorem migrateFrom_eq (inside : idx + remaining = schedulesV1.length) :
    tlc.migrateFrom escrow schedulesV1 idx remaining =
      .ok { tlc with
        vestingSchedules := tlc.vestingSchedules ++
          (schedulesV1.drop idx).mapIdx fun offset scheduleV1 =>
            scheduleV1.reconstructed
              (tlc.balanceOf (escrow (idx + offset))) } := by
  induction remaining generalizing tlc idx with
  | zero =>
      have done : schedulesV1.drop idx = [] :=
        List.drop_eq_nil_of_le (by omega)
      rw [done, List.mapIdx_nil, List.append_nil]
      rfl
  | succ remaining induction =>
      have here : idx < schedulesV1.length := by omega
      rw [migrateFrom_succ (List.getElem?_eq_getElem here),
        induction (by omega), List.drop_eq_getElem_cons here,
        List.mapIdx_cons, List.append_assoc]
      simp only [Nat.add_zero, Nat.add_assoc, Nat.add_comm 1,
        List.singleton_append]

theorem migrateVestingSchedulesFromV1ToV2_eq
    (unmigrated : tlc.vestingSchedules = []) :
    tlc.migrateVestingSchedulesFromV1ToV2 escrow schedulesV1 =
      .ok { tlc with
        vestingSchedules := schedulesV1.mapIdx fun index scheduleV1 =>
          scheduleV1.reconstructed (tlc.balanceOf (escrow index)) } := by
  have none : tlc.vestingSchedules.length = 0 :=
    congrArg List.length unmigrated
  rw [migrateVestingSchedulesFromV1ToV2, if_pos none,
    migrateFrom_eq (Nat.zero_add _), unmigrated]
  simp only [List.nil_append, List.drop_zero, Nat.zero_add]

namespace VestingScheduleV1

variable {schedule : VestingScheduleV1} {balance released time : Nat}

/-- What is vested does not depend on what was released. -/
def vested (schedule : VestingScheduleV1) (time : Nat) : Nat :=
  (schedule.migrated 0).vested time

/-- What an old schedule and its escrow satisfy: the escrow holds what is
vested at the end and not released yet. -/
structure Held (schedule : VestingScheduleV1) (balance released : Nat) :
    Prop where
  accepted : (schedule.migrated 0).Accepted
  amount_pos : 0 < schedule.amount
  backed : balance + released = schedule.vested schedule.endTime

/-- Every run of releases and revocations since the schedule was created
leaves it so. -/
theorem Held.of_run {now later : Nat} {account : Escrow.Account Nat}
    (accepted : (schedule.migrated 0).Accepted)
    (amount_pos : 0 < schedule.amount)
    (full : schedule.endTime = schedule.start + schedule.duration)
    (run : Relation.ReflTransGen ((schedule.migrated 0).terms true).Step
      (now, Escrow.Account.opened schedule.endTime schedule.amount)
      (later, account)) :
    Held { schedule with endTime := account.deadline } account.balance
      account.released := by
  have whole : ((schedule.migrated 0).terms true).earned schedule.endTime =
      schedule.amount := by
    rw [full]
    exact accepted.vested_final
  have opened : ((schedule.migrated 0).terms true).Keeps schedule.amount now
      (Escrow.Account.opened schedule.endTime schedule.amount) :=
    Escrow.Terms.keeps_opened whole
  obtain ⟨keeps, sooner⟩ := opened.of_run run
  obtain ⟨period, cliff, fits, ends, bounded⟩ := accepted
  exact
    { accepted := ⟨period, cliff, fits, sooner.trans ends, bounded⟩
      amount_pos
      backed := keeps.backed }

/-- All of the amount is vested at the end date exactly where no revocation
brought it forward. -/
theorem Held.amount_le_vested_iff (held : schedule.Held balance released) :
    schedule.amount ≤ schedule.vested schedule.endTime ↔
      schedule.endTime = schedule.start + schedule.duration := by
  have ends : schedule.endTime ≤ schedule.start + schedule.duration :=
    held.accepted.end_le
  constructor
  · intro all
    by_contra shortened
    have early : schedule.endTime < schedule.start + schedule.duration := by
      omega
    have less : schedule.vested schedule.endTime < schedule.amount :=
      VestingSchedule.vested_lt_amount held.amount_pos early
    omega
  · intro full
    rw [full]
    exact held.accepted.vested_final.ge

theorem Held.reconstructed_eq (held : schedule.Held balance released) :
    schedule.reconstructed balance =
      schedule.migrated (released +
        (schedule.amount - schedule.vested schedule.endTime)) := by
  have backed := held.backed
  have bounded : schedule.vested schedule.endTime ≤ schedule.amount :=
    VestingSchedule.vested_le_amount
  rw [reconstructed, min_eq_left (by omega)]
  congr 1
  omega

end VestingScheduleV1

/-- The migrated schedule records what was really released, so that after its
end what its escrow holds is releasable once it is unlocked. -/
structure Preserved (escrow : Nat → Address) (migrated : Tlc) (index : Nat)
    (schedule : VestingScheduleV1) (released : Nat) : Prop where
  recorded : migrated.vestingSchedules[index]? =
    some (schedule.migrated released)
  backed : (schedule.migrated released).computeVestedAmount
      schedule.endTime =
    .ok (migrated.balanceOf (escrow index) + released)
  releasable : ∀ now, schedule.endTime ≤ now →
    schedule.start + schedule.lockDuration < uint64Limit →
    schedule.start + schedule.lockDuration ≤ now →
    migrated.ignoreGlobalUnlockSchedule index = true ∨
      (schedule.migrated released).Unlocked now →
    migrated.computeVestingReleasableAmount now index =
      .ok (migrated.balanceOf (escrow index))

variable {migrated : Tlc} {schedule : VestingScheduleV1}
  {balance released recorded : Nat}

theorem VestingScheduleV1.Held.accepted_migrated
    (held : schedule.Held balance released) :
    (schedule.migrated recorded).Accepted := by
  obtain ⟨period, cliff, fits, ends, bounded⟩ := held.accepted
  exact ⟨period, cliff, fits, ends, bounded⟩

/-- After its end a migrated schedule releases what is vested less what it
records. -/
theorem VestingScheduleV1.Held.releasable_ended {now : Nat}
    (held : schedule.Held balance released)
    (found : migrated.vestingSchedules[index]? =
      some (schedule.migrated recorded))
    (ended : schedule.endTime ≤ now)
    (fits : schedule.start + schedule.lockDuration < uint64Limit)
    (unlocks : schedule.start + schedule.lockDuration ≤ now)
    (opens : migrated.ignoreGlobalUnlockSchedule index = true ∨
      (schedule.migrated recorded).Unlocked now) :
    migrated.computeVestingReleasableAmount now index =
      .ok (schedule.vested schedule.endTime - recorded) := by
  rw [computeVestingReleasableAmount, getVestingSchedule_of found, ok_bind]
  exact held.accepted_migrated.releasable_ended fits ended unlocks opens

theorem Preserved.of_recorded
    (held : schedule.Held (migrated.balanceOf (escrow index)) released)
    (found : migrated.vestingSchedules[index]? =
      some (schedule.migrated released)) :
    Preserved escrow migrated index schedule released := by
  refine ⟨found, ?_, ?_⟩
  · rw [held.backed]
    exact held.accepted_migrated.computeVestedAmount_eq
  · intro now ended fits unlocks opens
    rw [held.releasable_ended found ended fits unlocks opens, ← held.backed,
      Nat.add_sub_cancel_right]

/-- What the migration makes of one schedule. -/
theorem preserved_iff
    (held : schedule.Held (migrated.balanceOf (escrow index)) released)
    (found : migrated.vestingSchedules[index]? = some
      (schedule.reconstructed (migrated.balanceOf (escrow index)))) :
    Preserved escrow migrated index schedule released ↔
      schedule.endTime = schedule.start + schedule.duration := by
  rw [held.reconstructed_eq] at found
  rw [← held.amount_le_vested_iff]
  constructor
  · intro preserved
    have same := Option.some.inj (found.symm.trans preserved.recorded)
    have recorded : released +
        (schedule.amount - schedule.vested schedule.endTime) = released :=
      congrArg VestingSchedule.releasedAmount same
    omega
  · intro all
    rw [Nat.sub_eq_zero_of_le all, Nat.add_zero] at found
    exact .of_recorded held found

/-- The migration keeps every schedule and moves no tokens; what a revocation
returned it records as released, so the entitlements are preserved exactly
where no revocation brought an end date forward. -/
theorem migration_preserves_iff {released : Nat → Nat}
    (unmigrated : tlc.vestingSchedules = [])
    (held : ∀ (index : Nat) (schedule : VestingScheduleV1),
      schedulesV1[index]? = some schedule →
      schedule.Held (tlc.balanceOf (escrow index)) (released index)) :
    ∃ migrated, tlc.migrateVestingSchedulesFromV1ToV2 escrow schedulesV1 =
        .ok migrated ∧
      migrated.balanceOf = tlc.balanceOf ∧
      migrated.vestingSchedules.length = schedulesV1.length ∧
      (∀ (index : Nat) (schedule : VestingScheduleV1),
        schedulesV1[index]? = some schedule →
        migrated.vestingSchedules[index]? = some (schedule.migrated
          (released index +
            (schedule.amount - schedule.vested schedule.endTime))) ∧
        (Preserved escrow migrated index schedule (released index) ↔
          schedule.endTime = schedule.start + schedule.duration)) ∧
      ((∀ (index : Nat) (schedule : VestingScheduleV1),
        schedulesV1[index]? = some schedule →
        Preserved escrow migrated index schedule (released index)) ↔
        ∀ (index : Nat) (schedule : VestingScheduleV1),
          schedulesV1[index]? = some schedule →
          schedule.endTime = schedule.start + schedule.duration) := by
  obtain ⟨migrated, returned, balances, schedules⟩ :
      ∃ migrated, tlc.migrateVestingSchedulesFromV1ToV2 escrow schedulesV1 =
          .ok migrated ∧
        migrated.balanceOf = tlc.balanceOf ∧
        migrated.vestingSchedules = schedulesV1.mapIdx fun index schedule =>
          schedule.reconstructed (tlc.balanceOf (escrow index)) :=
    ⟨_, migrateVestingSchedulesFromV1ToV2_eq unmigrated, rfl, rfl⟩
  rw [← balances] at held schedules
  have each : ∀ (index : Nat) (schedule : VestingScheduleV1),
      schedulesV1[index]? = some schedule →
      migrated.vestingSchedules[index]? = some
        (schedule.reconstructed (migrated.balanceOf (escrow index))) := by
    intro index schedule opened
    rw [schedules, List.getElem?_mapIdx, opened]
    rfl
  refine ⟨migrated, returned, balances, ?_, ?_, ?_⟩
  · rw [schedules]
    exact List.length_mapIdx
  · intro index schedule opened
    have reached := each index schedule opened
    refine ⟨?_, preserved_iff (held index schedule opened) reached⟩
    rw [reached, (held index schedule opened).reconstructed_eq]
  · constructor
    · intro preserved index schedule opened
      exact (preserved_iff (held index schedule opened)
        (each index schedule opened)).mp (preserved index schedule opened)
    · intro full index schedule opened
      exact (preserved_iff (held index schedule opened)
        (each index schedule opened)).mpr (full index schedule opened)

section Sample

/-- A thousand tokens in two periods from time 100, until `endTime`. -/
def sampleV1 (endTime : Nat) : VestingScheduleV1 :=
  { start := 100
    endTime
    cliffDuration := 0
    lockDuration := 0
    duration := 100
    periodDuration := 50
    amount := 1000
    creator := grantor
    beneficiary := grantee
    revocable := true }

/-- Storage before the migration, with 500 tokens left in the escrow. -/
def sampleV1Storage : Tlc :=
  { fresh with
    balanceOf := Balances.credit (fun _ => 0) (sampleEscrow 0) 500
    ignoreGlobalUnlockSchedule := fun _ => true }

theorem sampleV1_accepted : ((sampleV1 200).migrated 0).Accepted := by
  constructor
  all_goals decide

/-- Half of the amount was released, and the other half stays releasable. -/
theorem migration_preserves_iff_sample : ∃ migrated,
    sampleV1Storage.migrateVestingSchedulesFromV1ToV2 sampleEscrow
        [sampleV1 200] = .ok migrated ∧
      Preserved sampleEscrow migrated 0 (sampleV1 200) 500 := by
  have release : (((sampleV1 200).migrated 0).terms true).Step
      (160, Escrow.Account.opened 200 1000)
      (160, (Escrow.Account.opened 200 1000).release 500) := .release
  have held : (sampleV1 200).Held 500 500 :=
    .of_run sampleV1_accepted (by decide) rfl (.single release)
  have all : ∀ (index : Nat) (schedule : VestingScheduleV1),
      [sampleV1 200][index]? = some schedule →
      schedule.Held (sampleV1Storage.balanceOf (sampleEscrow index))
        500 := by
    intro index schedule opened
    cases index with
    | zero =>
        obtain rfl := Option.some.inj opened
        exact held
    | succ index => cases opened
  obtain ⟨migrated, returned, -, -, each, -⟩ :=
    migration_preserves_iff (rfl : sampleV1Storage.vestingSchedules = []) all
  exact ⟨migrated, returned, ((each 0 (sampleV1 200) rfl).2).mpr rfl⟩

/-- Nothing was released and the creator took back 500 tokens: the migration
records them as released, and the 500 in the escrow are never releasable. -/
theorem revoked_schedule_loses_escrow : ∃ migrated account,
    Relation.ReflTransGen (((sampleV1 200).migrated 0).terms true).Step
        (100, Escrow.Account.opened 200 1000) (100, account) ∧
      account.deadline = 150 ∧ account.released = 0 ∧
      account.balance = sampleV1Storage.balanceOf (sampleEscrow 0) ∧
      sampleV1Storage.migrateVestingSchedulesFromV1ToV2 sampleEscrow
        [sampleV1 150] = .ok migrated ∧
      migrated.balanceOf (sampleEscrow 0) = 500 ∧
      migrated.vestingSchedules[0]? = some ((sampleV1 150).migrated 500) ∧
      ¬ Preserved sampleEscrow migrated 0 (sampleV1 150) 0 ∧
      ∀ now, 150 ≤ now →
        migrated.computeVestingReleasableAmount now 0 = .ok 0 := by
  have revoke : (((sampleV1 200).migrated 0).terms true).Step
      (100, Escrow.Account.opened 200 1000)
      (100, (Escrow.Account.opened 200 1000).revoke
        (((sampleV1 200).migrated 0).terms true) 150) :=
    .revoke (by decide) (by decide)
  have held : (sampleV1 150).Held 500 0 :=
    .of_run sampleV1_accepted (by decide) rfl (.single revoke)
  obtain ⟨migrated, returned, balance, recorded, flag⟩ : ∃ migrated,
      sampleV1Storage.migrateVestingSchedulesFromV1ToV2 sampleEscrow
          [sampleV1 150] = .ok migrated ∧
        migrated.balanceOf (sampleEscrow 0) = 500 ∧
        migrated.vestingSchedules[0]? = some ((sampleV1 150).migrated 500) ∧
        migrated.ignoreGlobalUnlockSchedule 0 = true :=
    ⟨_, migrateVestingSchedulesFromV1ToV2_eq rfl, by decide, by decide, rfl⟩
  refine ⟨migrated, _, .single revoke, rfl, rfl, by decide, returned,
    balance, recorded, ?_, ?_⟩
  · intro preserved
    have same := recorded.symm.trans preserved.recorded
    exact absurd same (by decide)
  · intro now ended
    have unlocks : 100 + 0 ≤ now := by omega
    exact held.releasable_ended recorded ended (by decide) unlocks
      (.inl flag)

end Sample

end Tlc

end RiverProtocol
