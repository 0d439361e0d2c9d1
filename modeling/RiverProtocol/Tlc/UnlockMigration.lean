import RiverProtocol.Tlc.Solvency

/-!
# The migration to a common unlock date

The migration contract sets the lock of the first schedules so that all of
them end on one date, and lets some of them ignore the global unlock.
-/

namespace RiverProtocol

open Checked Outcome Balances

namespace Tlc

/-- The reverts of `TlcMigration`, and those of the storage it uses. -/
inductive MigrationError where
  | panic (reason : Panic)
  | vestingScheduleNotFound (index : Nat)
  | cliffTooLong (i : Nat)
  | wrongUnlockDate (i : Nat)
  | wrongEnd (i : Nat)
  deriving DecidableEq, Repr

instance : HasPanic MigrationError := ⟨.panic⟩

/-- `OCTOBER_31_2026` -/
def october31Of2026 : Nat := 1793404800

/-- How to change a number of consecutive schedules. -/
structure VestingScheduleMigration where
  scheduleCount : Nat
  newLockDuration : Nat
  newStart : Nat
  newEnd : Nat
  setCliff : Bool
  setDuration : Bool
  setPeriodDuration : Bool
  ignoreGlobalUnlock : Bool

namespace VestingScheduleMigration

/-- An entry of the table that changes the lock only. -/
def relocked (scheduleCount newLockDuration : Nat) :
    VestingScheduleMigration :=
  { scheduleCount
    newLockDuration
    newStart := 0
    newEnd := 0
    setCliff := false
    setDuration := false
    setPeriodDuration := false
    ignoreGlobalUnlock := false }

/-- An entry that also takes its schedules out of the global unlock. -/
def ignoring (scheduleCount newLockDuration : Nat) :
    VestingScheduleMigration :=
  { relocked scheduleCount newLockDuration with ignoreGlobalUnlock := true }

/-- The array `migrations`. -/
def migrations : List VestingScheduleMigration :=
  [relocked 7 140140800, relocked 1 134697600, relocked 1 129859200,
   relocked 4 136771200, relocked 1 131414400, relocked 1 120873600,
   relocked 1 122601600, relocked 1 122342400, ignoring 1 118108800,
   relocked 1 140140800, relocked 1 113842800, relocked 1 140140800,
   relocked 1 113842800, relocked 1 140140800, relocked 1 113842800,
   relocked 3 140140800, relocked 1 134697600, relocked 2 114739200,
   ignoring 1 115084800, ignoring 1 115171200, ignoring 1 115257600,
   ignoring 1 115084800, ignoring 2 115257600, relocked 25 107229600,
   relocked 1 105321600, relocked 1 113097600, ignoring 1 106012800,
   ignoring 1 111369600, ignoring 1 109382400, ignoring 1 102556800,
   relocked 3 107229600, relocked 1 95299200, relocked 1 96508800,
   relocked 1 96249600, ignoring 1 101347200, relocked 1 101433600,
   relocked 1 100224000, relocked 1 99014400, relocked 1 96595200,
   relocked 2 95990400, relocked 1 90892800, ignoring 2 90460800,
   ignoring 1 89337600, relocked 1 88646400, relocked 1 85622400,
   relocked 1 88732800, relocked 1 87177600, relocked 1 84499200,
   relocked 1 87177600, relocked 2 114652800, relocked 1 85708800,
   relocked 1 87177600, relocked 1 105667200, ignoring 1 81475200,
   relocked 1 80870400, relocked 2 79488000, relocked 1 74822400,
   relocked 1 73612800, relocked 1 78451200, ignoring 1 68515200]

/-- The modifications of a schedule. -/
def modified (migration : VestingScheduleMigration)
    (sch : VestingSchedule) : VestingSchedule :=
  { sch with
    lockDuration := migration.newLockDuration
    start := if migration.newStart ≠ 0 then migration.newStart else sch.start
    endTime := if migration.newEnd ≠ 0 then migration.newEnd else sch.endTime
    cliffDuration := if migration.setCliff then 0 else sch.cliffDuration
    duration := if migration.setDuration then 86400 else sch.duration
    periodDuration :=
      if migration.setPeriodDuration then 86400 else sch.periodDuration }

end VestingScheduleMigration

/-- The check of the end of a schedule that was not revoked. -/
def checkEnd (isRevoked : Bool) (sch : VestingSchedule) (index : Nat) :
    Except MigrationError Unit :=
  if isRevoked then
    return ()
  else do
    let vestingEnd ← uadd64 sch.start sch.duration
    require (sch.endTime = vestingEnd) (.wrongEnd index)

/-- The body of the two loops of `migrate`. -/
def migrateSchedule (tlc : Tlc) (migration : VestingScheduleMigration)
    (index : Nat) : Except MigrationError Tlc := do
  let sch ← fetch tlc.vestingSchedules index (.vestingScheduleNotFound index)
  let vestingEnd ← uadd64 sch.start sch.duration
  let isRevoked := decide (vestingEnd ≠ sch.endTime)
  let sch := migration.modified sch
  let tlc := { tlc.setVestingSchedule index sch with
    ignoreGlobalUnlockSchedule :=
      if migration.ignoreGlobalUnlock then
        Function.update tlc.ignoreGlobalUnlockSchedule index true
      else tlc.ignoreGlobalUnlockSchedule }
  require (sch.cliffDuration ≤ sch.duration) (.cliffTooLong index)
  checkEnd isRevoked sch index
  let unlockDate ← uadd64 sch.start sch.lockDuration
  require (unlockDate = october31Of2026) (.wrongUnlockDate index)
  return tlc

/-- The inner loop of `migrate`: `remaining` schedules from `index` on. -/
def migrateRange (migration : VestingScheduleMigration) :
    (remaining index : Nat) → Tlc → Except MigrationError (Tlc × Nat)
  | 0, index, tlc => return (tlc, index)
  | remaining + 1, index, tlc => do
    let tlc ← tlc.migrateSchedule migration index
    migrateRange migration remaining (index + 1) tlc

/-- The outer loop of `migrate`. -/
def migrateAll : (migrations : List VestingScheduleMigration) →
    (index : Nat) → Tlc → Except MigrationError (Tlc × Nat)
  | [], index, tlc => return (tlc, index)
  | migration :: rest, index, tlc => do
    let (tlc, index) ←
      migrateRange migration migration.scheduleCount index tlc
    migrateAll rest index tlc

/-- `migrate` -/
def migrate (tlc : Tlc) : Except MigrationError Tlc := do
  let (tlc, _) ← migrateAll VestingScheduleMigration.migrations 0 tlc
  return tlc

namespace VestingScheduleMigration

/-- The migration of each schedule, one after another. -/
def plan (migrations : List VestingScheduleMigration) :
    List VestingScheduleMigration :=
  migrations.flatMap fun migration =>
    List.replicate migration.scheduleCount migration

/-- A migration that changes no more than the lock and the flag. -/
structure Plain (migration : VestingScheduleMigration) : Prop where
  start : migration.newStart = 0
  endTime : migration.newEnd = 0
  cliff : migration.setCliff = false
  duration : migration.setDuration = false
  period : migration.setPeriodDuration = false

instance (migration : VestingScheduleMigration) :
    Decidable migration.Plain :=
  decidable_of_iff (migration.newStart = 0 ∧ migration.newEnd = 0 ∧
    migration.setCliff = false ∧ migration.setDuration = false ∧
    migration.setPeriodDuration = false)
    ⟨fun ⟨start, endTime, cliff, duration, period⟩ =>
      ⟨start, endTime, cliff, duration, period⟩,
    fun plain => ⟨plain.start, plain.endTime, plain.cliff, plain.duration,
      plain.period⟩⟩

/-- What the checks of a plain migration ask of a schedule. -/
structure Fits (migration : VestingScheduleMigration)
    (sch : VestingSchedule) : Prop where
  ends : sch.start + sch.duration < uint64Limit
  cliff : sch.cliffDuration ≤ sch.duration
  unlocks : sch.start + migration.newLockDuration = october31Of2026

theorem Plain.modified {migration : VestingScheduleMigration}
    (plain : migration.Plain) (sch : VestingSchedule) :
    migration.modified sch =
      { sch with lockDuration := migration.newLockDuration } := by
  simp only [VestingScheduleMigration.modified, plain.start, plain.endTime,
    plain.cliff, plain.duration, plain.period]
  rfl

theorem migrations_plain : ∀ migration ∈ migrations, migration.Plain := by
  decide

theorem plan_plain : ∀ migration ∈ plan migrations, migration.Plain := by
  intro migration planned
  obtain ⟨entry, listed, copied⟩ := List.mem_flatMap.mp planned
  rw [List.eq_of_mem_replicate copied]
  exact migrations_plain entry listed

theorem plan_length : (plan migrations).length = 103 := by decide

end VestingScheduleMigration

open VestingScheduleMigration (plan)

variable {tlc after : Tlc} {index : Nat} {sch : VestingSchedule}
  {migration : VestingScheduleMigration}

/-- The storage with one schedule relocked. -/
def relockedAt (tlc : Tlc) (migration : VestingScheduleMigration)
    (index : Nat) (sch : VestingSchedule) : Tlc :=
  { tlc with
    vestingSchedules := tlc.vestingSchedules.set index
      { sch with lockDuration := migration.newLockDuration }
    ignoreGlobalUnlockSchedule :=
      if migration.ignoreGlobalUnlock then
        Function.update tlc.ignoreGlobalUnlockSchedule index true
      else tlc.ignoreGlobalUnlockSchedule }

theorem migrateSchedule_eq_ok (plain : migration.Plain) :
    tlc.migrateSchedule migration index = .ok after ↔
      ∃ sch, tlc.vestingSchedules[index]? = some sch ∧
        migration.Fits sch ∧ after = tlc.relockedAt migration index sch := by
  simp only [migrateSchedule, bind_eq_ok, fetch_eq_ok, uadd64_eq_ok,
    plain.modified, require_eq_ok, pure_eq_ok]
  constructor
  · rintro ⟨sch, found, _, ⟨ends, rfl⟩, -, cliff, -, -, unlock, ⟨-, rfl⟩, -,
      unlocks, rfl⟩
    exact ⟨sch, found, ⟨ends, cliff, unlocks⟩, rfl⟩
  · rintro ⟨sch, found, ⟨ends, cliff, unlocks⟩, rfl⟩
    refine ⟨sch, found, _, ⟨ends, rfl⟩, (), cliff, (), ?_, _, ⟨?_, rfl⟩, (),
      unlocks, rfl⟩
    · unfold checkEnd
      split
      · rfl
      · rename_i whole
        simp only [decide_eq_true_eq, ne_eq, not_not] at whole
        simp only [bind_eq_ok, uadd64_eq_ok, require_eq_ok]
        exact ⟨_, ⟨ends, rfl⟩, whole.symm⟩
    · rw [unlocks]
      decide

/-- The two loops are one over the plan. -/
def migrateEach : (planned : List VestingScheduleMigration) →
    (index : Nat) → Tlc → Except MigrationError (Tlc × Nat)
  | [], index, tlc => return (tlc, index)
  | migration :: rest, index, tlc => do
    let tlc ← tlc.migrateSchedule migration index
    migrateEach rest (index + 1) tlc

theorem migrateRange_eq (remaining : Nat) :
    migrateRange migration remaining index tlc =
      migrateEach (List.replicate remaining migration) index tlc := by
  induction remaining generalizing index tlc with
  | zero => rfl
  | succ remaining ih =>
      simp only [migrateRange, List.replicate_succ, migrateEach, ih]

theorem migrateEach_append (first rest : List VestingScheduleMigration) :
    migrateEach (first ++ rest) index tlc =
      migrateEach first index tlc >>= fun reached =>
        migrateEach rest reached.2 reached.1 := by
  induction first generalizing index tlc with
  | nil => rfl
  | cons migration first ih =>
      simp only [List.cons_append, migrateEach, ih, bind_assoc]

theorem migrateAll_eq (migrations : List VestingScheduleMigration) :
    migrateAll migrations index tlc =
      migrateEach (plan migrations) index tlc := by
  induction migrations generalizing index tlc with
  | nil => rfl
  | cons migration rest ih =>
      rw [plan, List.flatMap_cons, migrateEach_append, ← migrateRange_eq]
      simp only [migrateAll, ih]
      rfl

/-- What a plan did to the schedules from `start` on. -/
structure Relocked (planned : List VestingScheduleMigration) (start : Nat)
    (before after : Tlc) : Prop where
  balances : after.balanceOf = before.balanceOf
  delegates : after.delegates = before.delegates
  covered : ∀ (offset : Nat) (migration : VestingScheduleMigration),
    planned[offset]? = some migration →
    ∃ sch, before.vestingSchedules[start + offset]? = some sch ∧
      migration.Fits sch ∧
      after.vestingSchedules[start + offset]? =
        some { sch with lockDuration := migration.newLockDuration } ∧
      after.ignoreGlobalUnlockSchedule (start + offset) =
        (migration.ignoreGlobalUnlock ||
          before.ignoreGlobalUnlockSchedule (start + offset))
  others : ∀ index, index < start ∨ start + planned.length ≤ index →
    after.vestingSchedules[index]? = before.vestingSchedules[index]? ∧
      after.ignoreGlobalUnlockSchedule index =
        before.ignoreGlobalUnlockSchedule index

theorem relockedAt_other (tlc : Tlc) (migration : VestingScheduleMigration)
    (sch : VestingSchedule) {other : Nat} (apart : other ≠ index) :
    (tlc.relockedAt migration index sch).vestingSchedules[other]? =
        tlc.vestingSchedules[other]? ∧
      (tlc.relockedAt migration index sch).ignoreGlobalUnlockSchedule other =
        tlc.ignoreGlobalUnlockSchedule other := by
  refine ⟨List.getElem?_set_ne apart.symm, ?_⟩
  simp only [relockedAt]
  split
  · exact Function.update_of_ne apart _ _
  · rfl

theorem migrateEach_relocked {planned : List VestingScheduleMigration}
    {reached : Nat} (plain : ∀ migration ∈ planned, migration.Plain)
    (migrated : migrateEach planned index tlc = .ok (after, reached)) :
    Relocked planned index tlc after := by
  induction planned generalizing index tlc with
  | nil =>
      simp only [migrateEach, pure_eq_ok, Prod.mk.injEq] at migrated
      obtain ⟨rfl, -⟩ := migrated
      exact ⟨rfl, rfl, by simp, fun _ _ => ⟨rfl, rfl⟩⟩
  | cons migration rest ih =>
      simp only [migrateEach, bind_eq_ok] at migrated
      obtain ⟨next, first, migrated⟩ := migrated
      obtain ⟨sch, found, fits, rfl⟩ := (migrateSchedule_eq_ok
        (plain migration (List.mem_cons_self ..))).mp first
      obtain ⟨balances, delegates, covered, others⟩ := ih
        (fun migration listed => plain migration
          (List.mem_cons_of_mem _ listed)) migrated
      refine ⟨balances, delegates, ?_, ?_⟩
      · intro offset other planned
        cases offset with
        | zero =>
            obtain rfl : migration = other := by simpa using planned
            obtain ⟨kept, flag⟩ := others index (.inl (Nat.lt_succ_self _))
            have inside := (List.getElem?_eq_some_iff.mp found).1
            refine ⟨sch, found, fits, ?_, ?_⟩
            · rw [Nat.add_zero, kept]
              exact List.getElem?_set_self inside
            · rw [Nat.add_zero, flag]
              simp only [relockedAt]
              split
              · rename_i ignores
                rw [ignores, Function.update_self, Bool.true_or]
              · rename_i counts
                rw [Bool.eq_false_iff.mpr counts, Bool.false_or]
        | succ offset =>
            obtain ⟨old, oldFound, oldFits, relocked, flag⟩ :=
              covered offset other planned
            have shift : index + (offset + 1) = index + 1 + offset := by omega
            have apart : index + 1 + offset ≠ index := by omega
            obtain ⟨same, sameFlag⟩ :=
              relockedAt_other tlc migration sch apart
            rw [shift]
            exact ⟨old, same ▸ oldFound, oldFits, relocked,
              flag.trans (by rw [sameFlag])⟩
      · intro other outside
        rw [List.length_cons] at outside
        obtain ⟨kept, flag⟩ := others other (by omega)
        obtain ⟨same, sameFlag⟩ :=
          relockedAt_other tlc migration sch (show other ≠ index by omega)
        exact ⟨kept.trans same, flag.trans sameFlag⟩

/-- A plan that asks for nothing new changes nothing. -/
theorem migrateEach_same {planned : List VestingScheduleMigration}
    (plain : ∀ migration ∈ planned, migration.Plain)
    (settled : ∀ (offset : Nat) (migration : VestingScheduleMigration),
      planned[offset]? = some migration →
      ∃ sch, tlc.vestingSchedules[index + offset]? = some sch ∧
        migration.Fits sch ∧ sch.lockDuration = migration.newLockDuration ∧
        (migration.ignoreGlobalUnlock = true →
          tlc.ignoreGlobalUnlockSchedule (index + offset) = true)) :
    migrateEach planned index tlc = .ok (tlc, index + planned.length) := by
  induction planned generalizing index with
  | nil => rfl
  | cons migration rest ih =>
      obtain ⟨sch, found, fits, lock, flag⟩ := settled 0 migration rfl
      rw [Nat.add_zero] at found flag
      have same : tlc.relockedAt migration index sch = tlc := by
        have schedule : { sch with
            lockDuration := migration.newLockDuration } = sch := by
          rw [← lock]
        have flags : (if migration.ignoreGlobalUnlock then
            Function.update tlc.ignoreGlobalUnlockSchedule index true
          else tlc.ignoreGlobalUnlockSchedule) =
            tlc.ignoreGlobalUnlockSchedule := by
          split
          · rename_i ignores
            rw [← flag ignores, Function.update_eq_self]
          · rfl
        obtain ⟨inside, rfl⟩ := List.getElem?_eq_some_iff.mp found
        rw [relockedAt, flags, schedule, List.set_getElem_self]
      have first : tlc.migrateSchedule migration index = .ok tlc :=
        (migrateSchedule_eq_ok (plain migration
          (List.mem_cons_self ..))).mpr ⟨sch, found, fits, same.symm⟩
      have shift : index + (rest.length + 1) = index + 1 + rest.length := by
        omega
      rw [migrateEach, first, List.length_cons, shift]
      refine ih (fun migration listed => plain migration
        (List.mem_cons_of_mem _ listed)) fun offset other planned => ?_
      have shift : index + 1 + offset = index + (offset + 1) := by omega
      rw [shift]
      exact settled (offset + 1) other planned

theorem Relocked.inside {planned : List VestingScheduleMigration}
    {other : Nat} (relocked : Relocked planned 0 tlc after)
    (listed : other < after.vestingSchedules.length) :
    other < tlc.vestingSchedules.length := by
  rcases Nat.lt_or_ge other planned.length with covered | outside
  · obtain ⟨sch, found, -⟩ :=
      relocked.covered other _ (List.getElem?_eq_getElem covered)
    rw [Nat.zero_add] at found
    exact (List.getElem?_eq_some_iff.mp found).1
  · have same := (relocked.others other
      (.inr ((Nat.zero_add _).trans_le outside))).1
    rw [List.getElem?_eq_getElem listed] at same
    exact (List.getElem?_eq_some_iff.mp same.symm).1

theorem Relocked.again {planned : List VestingScheduleMigration}
    (plain : ∀ migration ∈ planned, migration.Plain)
    (relocked : Relocked planned index tlc after) :
    migrateEach planned index after =
      .ok (after, index + planned.length) := by
  refine migrateEach_same plain fun offset migration listed => ?_
  obtain ⟨sch, -, ⟨ends, cliff, unlocks⟩, found, flag⟩ :=
    relocked.covered offset migration listed
  refine ⟨_, found, ⟨ends, cliff, unlocks⟩, rfl, fun ignores => ?_⟩
  rw [flag, ignores, Bool.true_or]

theorem migrate_relocked (migrated : tlc.migrate = .ok after) :
    Relocked (plan VestingScheduleMigration.migrations) 0 tlc after := by
  simp only [migrate, bind_eq_ok, pure_eq_ok, Prod.exists] at migrated
  obtain ⟨_, _, migrated, rfl⟩ := migrated
  rw [migrateAll_eq] at migrated
  exact migrateEach_relocked VestingScheduleMigration.plan_plain migrated

theorem migrate_again (migrated : tlc.migrate = .ok after) :
    after.migrate = .ok after := by
  have again := (migrate_relocked migrated).again
    VestingScheduleMigration.plan_plain
  rw [migrate, migrateAll_eq, again]
  rfl

/-- What a revocation does to a schedule with any terms. -/
theorem revokeVestingSchedule_effect {escrow : Nat → Address}
    {now newEnd returnedAmount : Nat} {sender : Address}
    (found : tlc.vestingSchedules[index]? = some sch)
    (returned : tlc.revokeVestingSchedule escrow now sender index newEnd =
      .ok (after, returnedAmount)) :
    ∃ deadline, deadline ≤ sch.endTime ∧
      returnedAmount ≤ tlc.balanceOf (escrow index) ∧
      after = { tlc with
        balanceOf := move tlc.balanceOf (escrow index) sender returnedAmount
        vestingSchedules := tlc.vestingSchedules.set index
          { sch with endTime := deadline } } := by
  simp only [revokeVestingSchedule, getVestingSchedule_of found, ok_bind,
    bind_eq_ok, require_eq_ok, pure_eq_ok, Prod.mk.injEq] at returned
  obtain ⟨deadline, -, -, -, -, ⟨-, sooner⟩, -, -, _, -, _, -, amount, -,
    paid, transferred, rfl, rfl⟩ := returned
  obtain ⟨enough, rfl⟩ := returnTokens_ok transferred
  exact ⟨deadline, sooner, enough, rfl⟩

/-- A schedule that only a revocation has touched since its lock was set. -/
structure Locked (escrow : Nat → Address) (origin : World)
    (schedule : VestingSchedule) (index : Nat) (world : World) : Prop where
  found : ∃ endTime ≤ schedule.endTime,
    world.tlc.vestingSchedules[index]? = some { schedule with endTime }
  distinct : ∀ other < world.tlc.vestingSchedules.length, other ≠ index →
    escrow other ≠ escrow index
  released : world.released index = origin.released index
  kept : origin.tlc.balanceOf (escrow index) + origin.returned index ≤
    world.tlc.balanceOf (escrow index) + world.returned index

namespace Locked

variable {escrow : Nat → Address} {origin before next world : World}
  {schedule : VestingSchedule}

theorem releasable (tlc : Tlc) (sch : VestingSchedule) (index : Nat)
    {now : Nat} (locked : sch.start + sch.lockDuration = october31Of2026)
    (early : now < october31Of2026) (revertIfLocked : Bool) :
    tlc.computeReleasableAmount sch revertIfLocked now index =
      if revertIfLocked then .error .vestingScheduleIsLocked else .ok 0 := by
  have fits : sch.start + sch.lockDuration < uint64Limit := by
    rw [locked]
    decide
  simp only [computeReleasableAmount, uadd64_of_lt fits, ok_bind, locked,
    if_pos early]
  rfl

theorem step (locked : Locked escrow origin schedule index before)
    (lock : schedule.start + schedule.lockDuration = october31Of2026)
    (early : before.now < october31Of2026) (step : Step escrow before next) :
    Locked escrow origin schedule index next := by
  obtain ⟨⟨endTime, sooner, found⟩, distinct, released, kept⟩ := locked
  have inside := (List.getElem?_eq_some_iff.mp found).1
  cases step with
  | pass passed => exact ⟨⟨endTime, sooner, found⟩, distinct, released, kept⟩
  | transfer user returned =>
      obtain ⟨-, rfl⟩ := transfer_ok returned
      exact ⟨⟨endTime, sooner, found⟩, distinct, released,
        kept.trans (Nat.add_le_add_right (le_move (user index).symm) _)⟩
  | delegate user =>
      exact ⟨⟨endTime, sooner, found⟩, distinct, released, kept⟩
  | create user fresh returned =>
      obtain ⟨start, delegates, -, -, -, -, rfl, rfl⟩ :=
        createVestingSchedule_ok returned
      refine ⟨⟨endTime, sooner, ?_⟩, ?_, released,
        kept.trans (Nat.add_le_add_right (le_move (user index).symm) _)⟩
      · exact (List.getElem?_append_left inside).trans found
      · intro other listed apart
        rw [List.length_append, List.length_singleton] at listed
        rcases Nat.lt_succ_iff_lt_or_eq.mp listed with old | rfl
        · exact distinct other old apart
        · exact (fresh index inside).symm
  | @revoke tlc sender revoked newEnd returnedAmount user returned =>
      obtain ⟨other, otherFound⟩ := revokeVestingSchedule_found returned
      obtain ⟨deadline, shorter, enough, rfl⟩ :=
        revokeVestingSchedule_effect otherFound returned
      have paid : move before.tlc.balanceOf (escrow revoked) sender
          returnedAmount sender = before.tlc.balanceOf sender +
            returnedAmount := move_recipient (user revoked)
      refine ⟨?_, ?_, released, ?_⟩
      · by_cases same : revoked = index
        · subst same
          obtain rfl := Option.some.inj (otherFound.symm.trans found)
          exact ⟨deadline, shorter.trans sooner,
            List.getElem?_set_self inside⟩
        · exact ⟨endTime, sooner,
            (List.getElem?_set_ne same).trans found⟩
      · intro other listed
        rw [List.length_set] at listed
        exact distinct other listed
      · simp only [received, paid, Nat.add_sub_cancel_left]
        by_cases same : revoked = index
        · subst same
          rw [move_sender (user revoked).symm, credit_self]
          omega
        · have apart := distinct revoked
            (List.getElem?_eq_some_iff.mp otherFound).1 same
          rw [move_other apart.symm (user index).symm,
            credit_of_ne (Ne.symm same)]
          exact kept
  | @release tlc sender listed amount user returned =>
      obtain ⟨other, otherFound⟩ := releaseVestingSchedule_found returned
      obtain ⟨-, computed, -, -, rfl⟩ :=
        releaseVestingSchedule_effect otherFound returned
      by_cases same : listed = index
      · subst same
        obtain rfl := Option.some.inj (otherFound.symm.trans found)
        have none := releasable before.tlc { schedule with endTime } listed
          lock early true
        rw [none] at computed
        cases computed
      · have apart := distinct listed
          (List.getElem?_eq_some_iff.mp otherFound).1 same
        refine ⟨⟨endTime, sooner, (List.getElem?_set_ne same).trans found⟩,
          ?_, ?_, ?_⟩
        · intro other inside
          rw [List.length_set] at inside
          exact distinct other inside
        · exact (credit_of_ne (Ne.symm same)).trans released
        · simp only [move_other apart.symm (user index).symm]
          exact kept
  | delegateEscrow user returned =>
      simp only [delegateVestingEscrow, bind_eq_ok, require_eq_ok,
        pure_eq_ok] at returned
      obtain ⟨-, -, -, -, rfl⟩ := returned
      exact ⟨⟨endTime, sooner, found⟩, distinct, released, kept⟩

end Locked

theorem Locked.run {escrow : Nat → Address} {origin world later : World}
    {schedule : VestingSchedule}
    (locked : Locked escrow origin schedule index world)
    (lock : schedule.start + schedule.lockDuration = october31Of2026)
    (early : later.now < october31Of2026)
    (run : Relation.ReflTransGen (Step escrow) world later) :
    Locked escrow origin schedule index later := by
  induction run with
  | refl => exact locked
  | tail _ step ih =>
      have before := step.now_le.trans_lt early
      exact (ih before).step lock before step

/-- Once the migration went through, migrating again changes nothing, and
none of its 103 schedules releases anything before its date, whatever happens:
their terms stay, but for revocations, and what left an escrow went back to
the creator. -/
theorem migrated_schedules_locked {escrow : Nat → Address}
    {world later : World} (migrated : world.tlc.migrate = .ok tlc)
    (distinct : ∀ earlier later, earlier < later →
      later < world.tlc.vestingSchedules.length →
      escrow earlier ≠ escrow later)
    (run : Relation.ReflTransGen (Step escrow) { world with tlc } later)
    (early : later.now < october31Of2026) :
    tlc.migrate = .ok tlc ∧ ∀ index < 103, ∃ schedule endTime,
      world.tlc.vestingSchedules[index]? = some schedule ∧
      schedule.start ≤ october31Of2026 ∧ endTime ≤ schedule.endTime ∧
      later.tlc.vestingSchedules[index]? = some { schedule with
        endTime
        lockDuration := october31Of2026 - schedule.start } ∧
      later.released index = world.released index ∧
      later.tlc.computeVestingReleasableAmount later.now index = .ok 0 ∧
      (∀ sender, later.tlc.releaseVestingSchedule escrow later.now sender
        index = .error (if sender = schedule.beneficiary then
          .vestingScheduleIsLocked else .unauthorized sender)) ∧
      world.tlc.balanceOf (escrow index) + world.returned index ≤
        later.tlc.balanceOf (escrow index) + later.returned index := by
  have relocked := migrate_relocked migrated
  refine ⟨migrate_again migrated, fun index covered => ?_⟩
  rw [← VestingScheduleMigration.plan_length] at covered
  obtain ⟨schedule, before, ⟨-, -, unlocks⟩, after, -⟩ := relocked.covered
    index _ (List.getElem?_eq_getElem covered)
  rw [Nat.zero_add] at before after
  have same : (plan VestingScheduleMigration.migrations)[index].newLockDuration
      = october31Of2026 - schedule.start := by
    omega
  have sooner : schedule.start ≤ october31Of2026 := by omega
  rw [same] at after
  have lock : schedule.start + (october31Of2026 - schedule.start) =
      october31Of2026 := Nat.add_sub_cancel' sooner
  have locked : Locked escrow world { schedule with
      lockDuration := october31Of2026 - schedule.start } index
      { world with tlc } :=
    { found := ⟨schedule.endTime, le_rfl, after⟩
      distinct := fun other listed apart =>
        (lt_or_gt_of_ne apart).elim
          (fun earlier => distinct other index earlier
            (List.getElem?_eq_some_iff.mp before).1)
          fun later => (distinct index other later
            (relocked.inside listed)).symm
      released := rfl
      kept := by
        rw [relocked.balances] }
  obtain ⟨⟨endTime, shorter, found⟩, -, released, kept⟩ :=
    locked.run lock early run
  have nothing := Locked.releasable later.tlc { schedule with
    endTime
    lockDuration := october31Of2026 - schedule.start } index lock early
  refine ⟨schedule, endTime, before, sooner, shorter, found, released, ?_, ?_,
    kept⟩
  · rw [computeVestingReleasableAmount, getVestingSchedule_of found]
    exact nothing false
  · intro sender
    have found' := getVestingSchedule_of found
    rw [releaseVestingSchedule, found']
    simp only [ok_bind]
    split
    · rename_i caller
      rw [require_of caller]
      simp only [ok_bind]
      rw [nothing true]
      rfl
    · rename_i stranger
      rw [require_eq_error.mpr ⟨stranger, rfl⟩]
      rfl

section Sample

/-- Five years of vesting and one of lock for each schedule of the plan. -/
def sampleLocked : Tlc :=
  { fresh with
    balanceOf := Balances.credit fresh.balanceOf (sampleEscrow 0) 1000
    vestingSchedules :=
      (plan VestingScheduleMigration.migrations).map fun migration =>
        let start := october31Of2026 - migration.newLockDuration
        { start
          endTime := start + 5 * 31536000
          cliffDuration := 31536000
          lockDuration := 31536000
          duration := 5 * 31536000
          periodDuration := 31536000
          amount := 1000
          creator := grantor
          beneficiary := grantee
          revocable := true
          releasedAmount := 0 } }

/-- A second before the date the first schedule is revoked, and its rest
still cannot be released. -/
theorem migrated_schedules_locked_sample : ∃ tlc revoked returnedAmount,
    sampleLocked.migrate = .ok tlc ∧
      tlc.revokeVestingSchedule sampleEscrow (october31Of2026 - 1) grantor 0
        0 = .ok (revoked, returnedAmount) ∧
      revoked.releaseVestingSchedule sampleEscrow (october31Of2026 - 1)
        grantee 0 = .error .vestingScheduleIsLocked := by
  have checked : returns sampleLocked.migrate (fun tlc =>
      returns (tlc.revokeVestingSchedule sampleEscrow (october31Of2026 - 1)
        grantor 0 0) fun _ => true) = true := by
    decide +kernel
  obtain ⟨tlc, migrated, facts⟩ := returns_iff.mp checked
  obtain ⟨⟨revoked, returnedAmount⟩, revoking, -⟩ := returns_iff.mp facts
  have length : sampleLocked.vestingSchedules.length = 103 := by
    rw [sampleLocked, List.length_map, VestingScheduleMigration.plan_length]
  have distinct : ∀ earlier later, earlier < later →
      later < sampleLocked.vestingSchedules.length →
      sampleEscrow earlier ≠ sampleEscrow later := by
    intro earlier later sooner listed same
    rw [length] at listed
    have values := congrArg Fin.val same
    simp only [sampleEscrow, Address.ofNat] at values
    omega
  have passed : Step sampleEscrow (World.initial tlc 0)
      (World.initial tlc (october31Of2026 - 1)) := .pass (Nat.zero_le _)
  have run : Relation.ReflTransGen (Step sampleEscrow) (World.initial tlc 0)
      { World.initial tlc (october31Of2026 - 1) with
        tlc := revoked
        returned := credit (fun _ => 0) 0 (received tlc revoked grantor) } :=
    (Relation.ReflTransGen.single passed).tail
      (.revoke (sample_user (by decide)) revoking)
  obtain ⟨-, locked⟩ := @migrated_schedules_locked tlc sampleEscrow
    (World.initial sampleLocked 0) _ migrated distinct run
    (show october31Of2026 - 1 < october31Of2026 by decide)
  obtain ⟨schedule, endTime, found, -, -, -, -, -, releasing, -⟩ :=
    locked 0 (by decide)
  refine ⟨tlc, revoked, returnedAmount, migrated, revoking, ?_⟩
  have beneficiary : schedule.beneficiary = grantee := by
    obtain ⟨migration, -, rfl⟩ :=
      List.mem_map.mp (List.mem_of_getElem? found)
    rfl
  rw [← beneficiary]
  exact (releasing schedule.beneficiary).trans (by rw [if_pos rfl])

end Sample

end Tlc

end RiverProtocol
