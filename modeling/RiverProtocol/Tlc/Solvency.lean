import Mathlib.Logic.Relation
import RiverProtocol.Lib.Lists
import RiverProtocol.Tlc.Steps

/-!
# The escrows of the schedules are solvent

A world is the token at a block together with what its history moved: the
tokens users sent to an account, and those that releases and revocations of a
schedule moved to its beneficiary and to its creator.  Seen from one schedule,
every call is a step of the escrow account its terms describe.
-/

namespace RiverProtocol

open Checked Outcome Balances

namespace Tlc

structure World where
  tlc : Tlc
  now : Nat
  donated : Address → Nat
  released : Nat → Nat
  returned : Nat → Nat

/-- The tokens a call moved to an account. -/
def received (before after : Tlc) (account : Address) : Nat :=
  after.balanceOf account - before.balanceOf account

/-- Users hold keys, escrows are hashes. -/
def User (escrow : Nat → Address) (account : Address) : Prop :=
  ∀ index, account ≠ escrow index

/-- What a user can do, and the passage of time.  A transfer stands for every
call of the base token that moves the tokens of a user. -/
inductive Step (escrow : Nat → Address) : World → World → Prop where
  | pass {world : World} {later : Nat} :
      world.now ≤ later → Step escrow world { world with now := later }
  | transfer {world : World} {tlc : Tlc} {sender recipient : Address}
      {value : Nat} :
      User escrow sender →
      world.tlc.transfer sender recipient value = .ok tlc →
      Step escrow world { world with
        tlc
        donated := credit world.donated recipient value }
  | delegate {world : World} {delegator delegatee : Address} :
      User escrow delegator →
      Step escrow world { world with
        tlc := world.tlc.delegate delegator delegatee }
  | create {world : World} {tlc : Tlc} {creator : Address}
      {schedule : NewSchedule} {index : Nat} :
      User escrow creator →
      (∀ earlier < world.tlc.vestingSchedules.length,
        escrow earlier ≠ escrow world.tlc.vestingSchedules.length) →
      world.tlc.createVestingSchedule escrow world.now creator schedule =
        .ok (tlc, index) →
      Step escrow world { world with tlc }
  | revoke {world : World} {tlc : Tlc} {sender : Address}
      {index newEnd returnedAmount : Nat} :
      User escrow sender →
      world.tlc.revokeVestingSchedule escrow world.now sender index newEnd =
        .ok (tlc, returnedAmount) →
      Step escrow world { world with
        tlc
        returned := credit world.returned index
          (received world.tlc tlc sender) }
  | release {world : World} {tlc : Tlc} {sender : Address}
      {index releasedAmount : Nat} :
      User escrow sender →
      world.tlc.releaseVestingSchedule escrow world.now sender index =
        .ok (tlc, releasedAmount) →
      Step escrow world { world with
        tlc
        released := credit world.released index
          (received world.tlc tlc sender) }
  | delegateEscrow {world : World} {tlc : Tlc} {sender delegatee : Address}
      {index : Nat} :
      User escrow sender →
      world.tlc.delegateVestingEscrow escrow sender index delegatee =
        .ok tlc →
      Step escrow world { world with tlc }

/-- The world in which the token is initialized. -/
def World.initial (tlc : Tlc) (now : Nat) : World :=
  { tlc
    now
    donated := fun _ => 0
    released := fun _ => 0
    returned := fun _ => 0 }

/-- Worlds that calls of users reach once the token is initialized. -/
def Reachable (escrow : Nat → Address) (world : World) : Prop :=
  ∃ account tlc now, User escrow account ∧ initTLCV1 account = .ok tlc ∧
    Relation.ReflTransGen (Step escrow) (World.initial tlc now) world

theorem Reachable.tail {escrow : Nat → Address} {before after : World}
    (reachable : Reachable escrow before) (step : Step escrow before after) :
    Reachable escrow after := by
  obtain ⟨account, tlc, now, user, initialized, run⟩ := reachable
  exact ⟨account, tlc, now, user, initialized, run.tail step⟩

/-- The escrow account of a schedule, donations apart. -/
def World.account (world : World) (escrow : Nat → Address) (index : Nat)
    (schedule : VestingSchedule) : Escrow.Account Nat :=
  { deadline := schedule.endTime
    balance :=
      world.tlc.balanceOf (escrow index) - world.donated (escrow index)
    released := schedule.releasedAmount
    returned := world.returned index }

/-- The terms of a schedule in the current storage. -/
def World.terms (world : World) (index : Nat) (schedule : VestingSchedule) :
    Escrow.Terms Nat :=
  schedule.terms (world.tlc.ignoreGlobalUnlockSchedule index)

structure Backed (escrow : Nat → Address) (world : World) (index : Nat)
    (schedule : VestingSchedule) : Prop where
  accepted : schedule.Accepted
  covered : world.donated (escrow index) ≤
    world.tlc.balanceOf (escrow index)
  paid : world.released index = schedule.releasedAmount
  keeps : (world.terms index schedule).Keeps schedule.amount world.now
    (world.account escrow index schedule)

structure Sound (escrow : Nat → Address) (world : World) : Prop where
  supply : total world.tlc.balanceOf = initialSupply
  distinct : ∀ earlier later, earlier < later →
    later < world.tlc.vestingSchedules.length →
    escrow earlier ≠ escrow later
  backed : ∀ (index : Nat) (schedule : VestingSchedule),
    world.tlc.vestingSchedules[index]? = some schedule →
    Backed escrow world index schedule
  unopened : ∀ index, world.tlc.vestingSchedules.length ≤ index →
    (∀ earlier < world.tlc.vestingSchedules.length,
      escrow earlier ≠ escrow index) →
    world.tlc.balanceOf (escrow index) = world.donated (escrow index)
  unstarted : ∀ index, world.tlc.vestingSchedules.length ≤ index →
    world.released index = 0 ∧ world.returned index = 0

variable {escrow : Nat → Address} {world before after : World}
  {index other : Nat} {schedule later : VestingSchedule}
  {account sender recipient : Address} {value : Nat}

theorem Sound.initial {tlc : Tlc} {now : Nat} (user : User escrow account)
    (initialized : initTLCV1 account = .ok tlc) :
    Sound escrow (World.initial tlc now) := by
  simp only [initTLCV1, mint, bind_eq_ok, require_eq_ok, pure_eq_ok]
    at initialized
  obtain ⟨-, -, -, -, rfl⟩ := initialized
  refine
    { supply := ?_
      distinct := ?_
      backed := ?_
      unopened := ?_
      unstarted := fun _ _ => ⟨rfl, rfl⟩ }
  · have empty : total fresh.balanceOf = 0 := Finset.sum_const_zero
    simp only [World.initial, total_credit, empty, Nat.zero_add]
  · intro earlier later _ inside
    cases inside
  · intro index schedule found
    cases found
  · intro index _ _
    exact credit_of_ne (user index).symm

theorem Sound.escrow_ne (sound : Sound escrow world)
    (inside : index < world.tlc.vestingSchedules.length)
    (otherInside : other < world.tlc.vestingSchedules.length)
    (different : index ≠ other) : escrow index ≠ escrow other := by
  obtain sooner | later := Nat.lt_or_gt_of_ne different
  · exact sound.distinct index other sooner otherInside
  · exact (sound.distinct other index later inside).symm

/-- How a call continues a schedule: only its end and its released amount
change, as a step of its escrow account. -/
structure Follows (escrow : Nat → Address) (before after : World)
    (index : Nat) (schedule later : VestingSchedule) : Prop where
  same : later = { schedule with
    endTime := later.endTime
    releasedAmount := later.releasedAmount }
  sooner : later.endTime ≤ schedule.endTime
  flag : after.tlc.ignoreGlobalUnlockSchedule index =
    before.tlc.ignoreGlobalUnlockSchedule index
  covered : after.donated (escrow index) ≤
    after.tlc.balanceOf (escrow index)
  paid : after.released index = later.releasedAmount
  step : (before.terms index schedule).Step
    (before.now, before.account escrow index schedule)
    (after.now, after.account escrow index later)

theorem Backed.follows (backed : Backed escrow before index schedule)
    (follows : Follows escrow before after index schedule later) :
    Backed escrow after index later := by
  have terms : after.terms index later = before.terms index schedule := by
    rw [World.terms, follows.flag, follows.same]
    rfl
  have amount : later.amount = schedule.amount := by
    rw [follows.same]
  refine
    { accepted := ?_
      covered := follows.covered
      paid := follows.paid
      keeps := ?_ }
  · have sooner := follows.sooner
    obtain ⟨period, cliff, fits, ends, bounded⟩ := backed.accepted
    rw [follows.same]
    exact ⟨period, cliff, fits, sooner.trans ends, bounded⟩
  · rw [terms, amount]
    exact follows.step.keeps backed.keeps

/-- A call that leaves an escrow alone, donations apart. -/
theorem Backed.frame (backed : Backed escrow before index schedule)
    (passed : before.now ≤ after.now)
    (flag : after.tlc.ignoreGlobalUnlockSchedule index =
      before.tlc.ignoreGlobalUnlockSchedule index)
    (balance : after.tlc.balanceOf (escrow index) +
      before.donated (escrow index) =
        before.tlc.balanceOf (escrow index) + after.donated (escrow index))
    (released : after.released index = before.released index)
    (returned : after.returned index = before.returned index) :
    Follows escrow before after index schedule schedule := by
  have covered := backed.covered
  have account : after.account escrow index schedule =
      before.account escrow index schedule := by
    unfold World.account
    rw [returned]
    congr 1
    omega
  refine
    { same := rfl
      sooner := le_rfl
      flag
      covered := by omega
      paid := released.trans backed.paid
      step := ?_ }
  rw [account]
  exact .pass passed

/-- What a call keeps and how it continues each schedule. -/
structure Advances (escrow : Nat → Address) (before after : World) :
    Prop where
  sound : Sound escrow after
  follows : ∀ (index : Nat) (schedule : VestingSchedule),
    before.tlc.vestingSchedules[index]? = some schedule →
    ∃ later, after.tlc.vestingSchedules[index]? = some later ∧
      Follows escrow before after index schedule later

/-- A call that touches no schedule. -/
theorem Sound.frame (sound : Sound escrow before)
    (passed : before.now ≤ after.now)
    (schedules : after.tlc.vestingSchedules = before.tlc.vestingSchedules)
    (flags : after.tlc.ignoreGlobalUnlockSchedule =
      before.tlc.ignoreGlobalUnlockSchedule)
    (supply : total after.tlc.balanceOf = total before.tlc.balanceOf)
    (balances : ∀ index, after.tlc.balanceOf (escrow index) +
      before.donated (escrow index) =
        before.tlc.balanceOf (escrow index) + after.donated (escrow index))
    (released : after.released = before.released)
    (returned : after.returned = before.returned) :
    Advances escrow before after := by
  have follows : ∀ (index : Nat) (schedule : VestingSchedule),
      before.tlc.vestingSchedules[index]? = some schedule →
      Follows escrow before after index schedule schedule := by
    intro index schedule found
    exact (sound.backed index schedule found).frame passed
      (congrFun flags index) (balances index) (congrFun released index)
      (congrFun returned index)
  constructor
  · refine
      { supply := supply.trans sound.supply
        distinct := ?_
        backed := ?_
        unopened := ?_
        unstarted := ?_ }
    · rw [schedules]
      exact sound.distinct
    · intro index schedule found
      rw [schedules] at found
      exact (sound.backed index schedule found).follows
        (follows index schedule found)
    · rw [schedules]
      intro index outside fresh
      have same := sound.unopened index outside fresh
      have moved := balances index
      omega
    · rw [schedules, released, returned]
      exact sound.unstarted
  · intro index schedule found
    exact ⟨schedule, schedules ▸ found, follows index schedule found⟩

/-- A call that pays a user out of one escrow. -/
structure Pays (escrow : Nat → Address) (before after : World) (index : Nat)
    (schedule later : VestingSchedule) (recipient : Address) (value : Nat) :
    Prop where
  user : User escrow recipient
  found : before.tlc.vestingSchedules[index]? = some schedule
  enough : value ≤ before.tlc.balanceOf (escrow index)
  tlc : after.tlc = { before.tlc with
    balanceOf := move before.tlc.balanceOf (escrow index) recipient value
    vestingSchedules := before.tlc.vestingSchedules.set index later }
  now : after.now = before.now
  donated : after.donated = before.donated
  others : ∀ other, other ≠ index →
    after.released other = before.released other ∧
      after.returned other = before.returned other
  follows : Follows escrow before after index schedule later

theorem Pays.inside
    (pays : Pays escrow before after index schedule later recipient value) :
    index < before.tlc.vestingSchedules.length :=
  (List.getElem?_eq_some_iff.mp pays.found).1

theorem Pays.length
    (pays : Pays escrow before after index schedule later recipient value) :
    after.tlc.vestingSchedules.length = before.tlc.vestingSchedules.length := by
  rw [pays.tlc]
  exact List.length_set

theorem Pays.untouched
    (pays : Pays escrow before after index schedule later recipient value)
    (different : escrow other ≠ escrow index) :
    after.tlc.balanceOf (escrow other) =
      before.tlc.balanceOf (escrow other) := by
  rw [pays.tlc]
  exact move_other different (pays.user other).symm

theorem Pays.continues
    (pays : Pays escrow before after index schedule later recipient value)
    (sound : Sound escrow before) {found : VestingSchedule}
    (opened : before.tlc.vestingSchedules[other]? = some found) :
    ∃ later, after.tlc.vestingSchedules[other]? = some later ∧
      Follows escrow before after other found later := by
  by_cases same : other = index
  · subst same
    obtain rfl := Option.some.inj (pays.found.symm.trans opened)
    refine ⟨later, ?_, pays.follows⟩
    rw [pays.tlc]
    exact List.getElem?_set_self pays.inside
  · have otherInside := (List.getElem?_eq_some_iff.mp opened).1
    have apart := sound.escrow_ne otherInside pays.inside same
    obtain ⟨released, returned⟩ := pays.others other same
    refine ⟨found, ?_, ?_⟩
    · rw [pays.tlc]
      exact (List.getElem?_set_ne (Ne.symm same)).trans opened
    · refine (sound.backed other found opened).frame pays.now.ge ?_ ?_
        released returned
      · rw [pays.tlc]
      · rw [pays.untouched apart, pays.donated]

theorem Pays.advances
    (pays : Pays escrow before after index schedule later recipient value)
    (sound : Sound escrow before) :
    Advances escrow before after := by
  refine ⟨?_, fun other found opened => pays.continues sound opened⟩
  refine
    { supply := ?_
      distinct := ?_
      backed := ?_
      unopened := ?_
      unstarted := ?_ }
  · rw [pays.tlc]
    exact (total_move pays.enough).trans sound.supply
  · rw [pays.length]
    exact sound.distinct
  · intro other reached found
    have otherInside : other < before.tlc.vestingSchedules.length := by
      rw [← pays.length]
      exact (List.getElem?_eq_some_iff.mp found).1
    have opened := List.getElem?_eq_getElem otherInside
    obtain ⟨continued, same, follows⟩ := pays.continues sound opened
    obtain rfl := Option.some.inj (found.symm.trans same)
    exact (sound.backed other _ opened).follows follows
  · rw [pays.length]
    intro other outside fresh
    rw [pays.untouched (fresh index pays.inside).symm, pays.donated]
    exact sound.unopened other outside fresh
  · rw [pays.length]
    intro other outside
    have different : other ≠ index :=
      (pays.inside.trans_le outside).ne'
    obtain ⟨released, returned⟩ := pays.others other different
    rw [released, returned]
    exact sound.unstarted other outside

variable {tlc : Tlc}

/-- Releasing brings the escrow account to what is due. -/
theorem Backed.release {releasable : Nat}
    (backed : Backed escrow world index schedule)
    (found : world.tlc.vestingSchedules[index]? = some schedule)
    (recent : world.now < uint64Limit) (user : User escrow sender)
    (returned : world.tlc.releaseVestingSchedule escrow world.now sender
      index = .ok (tlc, releasable)) :
    Pays escrow world
      { world with
        tlc
        released := credit world.released index
          (received world.tlc tlc sender) }
      index schedule
      { schedule with
        releasedAmount := schedule.releasedAmount + releasable }
      sender releasable := by
  obtain ⟨-, -, -, enough, due, rfl⟩ := releaseVestingSchedule_ok found
    backed.accepted recent backed.keeps.capped returned
  have covered := backed.covered
  have payable : schedule.due
      (world.tlc.ignoreGlobalUnlockSchedule index) world.now -
        schedule.releasedAmount ≤
      world.tlc.balanceOf (escrow index) - world.donated (escrow index) :=
    backed.keeps.payable
  have debited : move world.tlc.balanceOf (escrow index) sender releasable
      (escrow index) = world.tlc.balanceOf (escrow index) - releasable :=
    move_sender (user index).symm
  have credited : move world.tlc.balanceOf (escrow index) sender releasable
      sender = world.tlc.balanceOf sender + releasable :=
    move_recipient (user index)
  refine
    { user
      found
      enough
      tlc := rfl
      now := rfl
      donated := rfl
      others := fun other different => ⟨credit_of_ne different, rfl⟩
      follows :=
        { same := rfl
          sooner := le_rfl
          flag := rfl
          covered := ?_
          paid := ?_
          step := ?_ } }
  · simp only [debited]
    omega
  · simp only [credit_self, received, credited, backed.paid]
    omega
  · refine .release_of rfl ?_ due rfl
    simp only [World.account, debited]
    rw [Nat.sub_right_comm]
    congr 1
    exact (Nat.sub_eq_of_eq_add' due.symm).symm

/-- Revoking brings the deadline of the escrow account forward. -/
theorem Backed.revoke {newEnd returnedAmount : Nat}
    (backed : Backed escrow world index schedule)
    (found : world.tlc.vestingSchedules[index]? = some schedule)
    (recent : world.now < uint64Limit) (user : User escrow sender)
    (returned : world.tlc.revokeVestingSchedule escrow world.now sender
      index newEnd = .ok (tlc, returnedAmount)) :
    ∃ deadline, Pays escrow world
      { world with
        tlc
        returned := credit world.returned index
          (received world.tlc tlc sender) }
      index schedule { schedule with endTime := deadline }
      sender returnedAmount := by
  obtain ⟨deadline, chosen, -, sooner, -, unearned, enough, rfl⟩ :=
    revokeVestingSchedule_ok found backed.accepted returned
  have ahead := revokedEnd_ok recent chosen
  have covered := backed.covered
  have returnable : schedule.vested schedule.endTime -
      schedule.vested deadline ≤
      world.tlc.balanceOf (escrow index) - world.donated (escrow index) :=
    (backed.keeps.returnable ahead sooner).2
  have debited : move world.tlc.balanceOf (escrow index) sender returnedAmount
      (escrow index) = world.tlc.balanceOf (escrow index) - returnedAmount :=
    move_sender (user index).symm
  have credited : move world.tlc.balanceOf (escrow index) sender
      returnedAmount sender = world.tlc.balanceOf sender + returnedAmount :=
    move_recipient (user index)
  refine ⟨deadline,
    { user
      found
      enough
      tlc := rfl
      now := rfl
      donated := rfl
      others := fun other different => ⟨rfl, credit_of_ne different⟩
      follows :=
        { same := rfl
          sooner
          flag := rfl
          covered := ?_
          paid := backed.paid
          step := ?_ } }⟩
  · simp only [debited]
    omega
  · refine .revoke_of ahead sooner ?_ rfl ?_
    · simp only [World.account, debited]
      rw [Nat.sub_right_comm]
      congr 1
    · simp only [World.account, credit_self, received, credited]
      rw [Nat.add_sub_cancel_left]
      congr 1

/-- A schedule opens with its amount in escrow. -/
theorem Backed.opened (accepted : schedule.Accepted)
    (full : schedule.endTime = schedule.start + schedule.duration)
    (unreleased : schedule.releasedAmount = 0)
    (balance : world.tlc.balanceOf (escrow index) =
      world.donated (escrow index) + schedule.amount)
    (released : world.released index = 0)
    (returned : world.returned index = 0) :
    Backed escrow world index schedule := by
  have account : world.account escrow index schedule =
      Escrow.Account.opened schedule.endTime schedule.amount := by
    unfold World.account
    rw [balance, unreleased, returned, Nat.add_sub_cancel_left]
    rfl
  refine
    { accepted
      covered := by omega
      paid := released.trans unreleased.symm
      keeps := ?_ }
  rw [account]
  apply Escrow.Terms.keeps_opened
  rw [full]
  exact accepted.vested_final

/-- A call that opens a schedule. -/
structure Opens (escrow : Nat → Address) (before : World) (tlc : Tlc)
    (creator : Address) (schedule : VestingSchedule) : Prop where
  user : User escrow creator
  fresh : ∀ earlier < before.tlc.vestingSchedules.length,
    escrow earlier ≠ escrow before.tlc.vestingSchedules.length
  held : schedule.amount ≤ before.tlc.balanceOf creator
  accepted : schedule.amount ≤ initialSupply → schedule.Accepted
  full : schedule.endTime = schedule.start + schedule.duration
  unreleased : schedule.releasedAmount = 0
  balances : tlc.balanceOf = move before.tlc.balanceOf creator
    (escrow before.tlc.vestingSchedules.length) schedule.amount
  schedules : tlc.vestingSchedules =
    before.tlc.vestingSchedules ++ [schedule]
  flags : ∀ index < before.tlc.vestingSchedules.length,
    tlc.ignoreGlobalUnlockSchedule index =
      before.tlc.ignoreGlobalUnlockSchedule index

theorem Opens.length {creator : Address}
    (opens : Opens escrow world tlc creator schedule) :
    tlc.vestingSchedules.length = world.tlc.vestingSchedules.length + 1 := by
  rw [opens.schedules]
  exact List.length_append

theorem Opens.untouched {creator : Address}
    (opens : Opens escrow world tlc creator schedule)
    (different :
      escrow index ≠ escrow world.tlc.vestingSchedules.length) :
    tlc.balanceOf (escrow index) = world.tlc.balanceOf (escrow index) := by
  rw [opens.balances]
  exact move_other (opens.user index).symm different

theorem Opens.continues {creator : Address} {found : VestingSchedule}
    (opens : Opens escrow world tlc creator schedule)
    (sound : Sound escrow world)
    (opened : world.tlc.vestingSchedules[index]? = some found) :
    tlc.vestingSchedules[index]? = some found ∧
      Follows escrow world { world with tlc } index found found := by
  have inside := (List.getElem?_eq_some_iff.mp opened).1
  constructor
  · rw [opens.schedules]
    exact (List.getElem?_append_left inside).trans opened
  · refine (sound.backed index found opened).frame le_rfl
      (opens.flags index inside) ?_ rfl rfl
    simp only [opens.untouched (opens.fresh index inside)]

theorem Opens.advances {creator : Address}
    (opens : Opens escrow world tlc creator schedule)
    (sound : Sound escrow world) :
    Advances escrow world { world with tlc } := by
  refine ⟨?_, fun index found opened =>
    ⟨found, opens.continues sound opened⟩⟩
  refine
    { supply := ?_
      distinct := ?_
      backed := ?_
      unopened := ?_
      unstarted := ?_ }
  · simp only [opens.balances, total_move opens.held]
    exact sound.supply
  · intro earlier later sooner inside
    simp only [opens.length] at inside
    by_cases last : later = world.tlc.vestingSchedules.length
    · subst last
      exact opens.fresh earlier sooner
    · exact sound.distinct earlier later sooner (by omega)
  · intro index found reached
    simp only [opens.schedules] at reached
    obtain opened | ⟨rfl, rfl⟩ := Lists.getElem?_concat_cases reached
    · exact (sound.backed index found opened).follows
        (opens.continues sound opened).2
    · have empty := sound.unopened _ le_rfl opens.fresh
      obtain ⟨released, returned⟩ := sound.unstarted _ le_rfl
      have bounded : found.amount ≤ initialSupply := by
        rw [← sound.supply]
        exact opens.held.trans (le_total _ _)
      refine Backed.opened (opens.accepted bounded) opens.full
        opens.unreleased ?_ released returned
      simp only [opens.balances, ← empty]
      exact move_recipient (opens.user _).symm
  · simp only [opens.length]
    intro index outside apart
    rw [opens.untouched (apart _ (Nat.lt_succ_self _)).symm]
    exact sound.unopened index (by omega)
      fun earlier inside => apart earlier (by omega)
  · simp only [opens.length]
    intro index outside
    exact sound.unstarted index (by omega)

theorem opens_of_create {creator : Address} {parameters : NewSchedule}
    (user : User escrow creator)
    (fresh : ∀ earlier < world.tlc.vestingSchedules.length,
      escrow earlier ≠ escrow world.tlc.vestingSchedules.length)
    (returned : world.tlc.createVestingSchedule escrow world.now creator
      parameters = .ok (tlc, index)) :
    ∃ schedule, Opens escrow world tlc creator schedule := by
  obtain ⟨start, delegates, held, period, cliff, fits, rfl, created⟩ :=
    createVestingSchedule_ok returned
  refine ⟨parameters.opened creator start,
    { user
      fresh
      held
      accepted := fun bounded => ⟨period, cliff, fits, le_rfl, bounded⟩
      full := rfl
      unreleased := rfl
      balances := congrArg Tlc.balanceOf created
      schedules := congrArg Tlc.vestingSchedules created
      flags := ?_ }⟩
  intro index inside
  rw [created]
  exact Function.update_of_ne inside.ne _ _

/-- Every step keeps the invariant and is, for each schedule, a step of its
escrow account. -/
theorem Step.advances (step : Step escrow before after)
    (sound : Sound escrow before) (recent : after.now < uint64Limit) :
    Advances escrow before after := by
  cases step with
  | pass passed =>
      exact sound.frame passed rfl rfl rfl (fun _ => rfl) rfl rfl
  | transfer user returned =>
      rename_i tlc sender recipient value
      obtain ⟨enough, rfl⟩ := transfer_ok returned
      refine sound.frame le_rfl rfl rfl (total_move enough) ?_ rfl rfl
      intro index
      have notSender := (user index).symm
      by_cases same : escrow index = recipient
      · subst same
        simp only [credit_self, move_recipient notSender]
        omega
      · simp only [credit_of_ne same, move_other notSender same]
  | delegate user =>
      exact sound.frame le_rfl rfl rfl rfl (fun _ => rfl) rfl rfl
  | create user fresh returned =>
      obtain ⟨schedule, opens⟩ := opens_of_create user fresh returned
      exact opens.advances sound
  | revoke user returned =>
      obtain ⟨schedule, found⟩ := revokeVestingSchedule_found returned
      obtain ⟨deadline, pays⟩ := (sound.backed _ schedule found).revoke found
        recent user returned
      exact pays.advances sound
  | release user returned =>
      obtain ⟨schedule, found⟩ := releaseVestingSchedule_found returned
      have pays := (sound.backed _ schedule found).release found recent user
        returned
      exact pays.advances sound
  | delegateEscrow user returned =>
      simp only [delegateVestingEscrow, bind_eq_ok, require_eq_ok,
        pure_eq_ok] at returned
      obtain ⟨-, -, -, -, rfl⟩ := returned
      exact sound.frame le_rfl rfl rfl rfl (fun _ => rfl) rfl rfl

theorem Step.now_le (step : Step escrow before after) :
    before.now ≤ after.now := by
  cases step with
  | pass passed => exact passed
  | _ => exact le_rfl

theorem Sound.of_reachable (reachable : Reachable escrow world)
    (recent : world.now < uint64Limit) : Sound escrow world := by
  obtain ⟨account, tlc, now, user, initialized, run⟩ := reachable
  induction run with
  | refl => exact Sound.initial user initialized
  | tail _ step induction =>
      have earlier := induction (step.now_le.trans_lt recent)
      exact (step.advances earlier recent).sound

/-- What holds of the escrow of a schedule: its books balance, and no transfer
out of it can fail for lack of tokens. -/
structure Solvent (escrow : Nat → Address) (world : World) (index : Nat)
    (schedule : VestingSchedule) : Prop where
  /-- Donations apart, the escrow holds what is vested by the end and not yet
  released. -/
  backed : ∃ vested,
    schedule.computeVestedAmount schedule.endTime = .ok vested ∧
      schedule.releasedAmount ≤ vested ∧
      world.tlc.balanceOf (escrow index) =
        vested - schedule.releasedAmount + world.donated (escrow index)
  vested : ∃ vested,
    world.tlc.computeVestingVestedAmount world.now index = .ok vested ∧
      schedule.releasedAmount ≤ vested
  conserved : world.released index + world.returned index +
    world.tlc.balanceOf (escrow index) =
      schedule.amount + world.donated (escrow index)
  releases : ∀ sender,
    world.tlc.releaseVestingSchedule escrow world.now sender index ≠
      .error .transferAmountExceedsBalance
  revokes : ∀ sender newEnd,
    world.tlc.revokeVestingSchedule escrow world.now sender index newEnd ≠
      .error .transferAmountExceedsBalance
  unlocks : ∀ sender,
    world.tlc.releaseVestingSchedule escrow world.now sender index ≠
        .error .globalUnlockUnderlfow ∧
      world.tlc.computeVestingReleasableAmount world.now index ≠
        .error .globalUnlockUnderlfow

theorem Backed.solvent (backed : Backed escrow world index schedule)
    (found : world.tlc.vestingSchedules[index]? = some schedule)
    (recent : world.now < uint64Limit) :
    Solvent escrow world index schedule := by
  have accepted := backed.accepted
  have covered := backed.covered
  have capped := backed.keeps.capped
  have held : world.tlc.balanceOf (escrow index) -
      world.donated (escrow index) + schedule.releasedAmount =
        schedule.vested schedule.endTime := backed.keeps.backed
  have whole : schedule.releasedAmount + world.returned index +
      (world.tlc.balanceOf (escrow index) - world.donated (escrow index)) =
        schedule.amount := backed.keeps.whole
  have payable : schedule.due
      (world.tlc.ignoreGlobalUnlockSchedule index) world.now -
        schedule.releasedAmount ≤
      world.tlc.balanceOf (escrow index) - world.donated (escrow index) :=
    backed.keeps.payable
  have releasing : ∀ sender failure,
      world.tlc.releaseVestingSchedule escrow world.now sender index =
        .error failure →
      failure ≠ .transferAmountExceedsBalance ∧
        failure ≠ .globalUnlockUnderlfow := by
    intro sender failure failed
    obtain rfl | rfl | rfl | rfl | rfl | rfl := releaseVestingSchedule_error
      found accepted recent capped (payable.trans (Nat.sub_le _ _)) failed
    all_goals exact ⟨nofun, nofun⟩
  refine
    { backed := ?_
      vested := ?_
      conserved := ?_
      releases := fun sender failed => (releasing sender _ failed).1 rfl
      revokes := ?_
      unlocks := ?_ }
  · exact ⟨_, accepted.computeVestedAmount_eq, by omega, by omega⟩
  · refine ⟨schedule.vested (min world.now schedule.endTime), ?_,
      backed.keeps.earned⟩
    rw [computeVestingVestedAmount, getVestingSchedule_of found, ok_bind,
      LibUint256.min_eq]
    exact accepted.computeVestedAmount_eq
  · have paid := backed.paid
    omega
  · intro sender newEnd failed
    have returnable : ∀ deadline, world.now ≤ deadline →
        deadline ≤ schedule.endTime →
        schedule.vested schedule.endTime - schedule.vested deadline ≤
          world.tlc.balanceOf (escrow index) := by
      intro deadline ahead sooner
      have unearned : schedule.vested schedule.endTime -
          schedule.vested deadline ≤
          world.tlc.balanceOf (escrow index) -
            world.donated (escrow index) :=
        (backed.keeps.returnable ahead sooner).2
      omega
    have impossible := revokeVestingSchedule_error found accepted recent
      returnable failed
    simp at impossible
  · intro sender
    refine ⟨fun failed => (releasing sender _ failed).2 rfl, ?_⟩
    intro failed
    cases computeVestingReleasableAmount_error found accepted recent capped
      failed

/-- Below 64 bits of time the escrow of every schedule is solvent, after any
run of calls and any passage of time. -/
theorem vesting_escrow_solvent (reachable : Reachable escrow world)
    (recent : world.now < uint64Limit)
    (found : world.tlc.vestingSchedules[index]? = some schedule) :
    Solvent escrow world index schedule :=
  ((Sound.of_reachable reachable recent).backed index schedule found).solvent
    found recent

section Sample

def grantor : Address := .ofNat 1

def grantee : Address := .ofNat 2

def sampleEscrow (index : Nat) : Address :=
  .ofNat (2 ^ 159 + index % 2 ^ 159)

/-- A thousand tokens in two periods from time 100 to time 200. -/
def sampleSchedule : NewSchedule :=
  { start := 100
    cliffDuration := 0
    duration := 100
    periodDuration := 50
    lockDuration := 0
    revocable := true
    amount := 1000
    beneficiary := grantee
    delegatee := .zero
    ignoreGlobalUnlockSchedule := true }

/-- The schedule is created at time 1 and released at time `now`. -/
def sampleReleased (now : Nat) : Except Error World := do
  let tlc ← initTLCV1 grantor
  let (created, _) ←
    tlc.createVestingSchedule sampleEscrow 1 grantor sampleSchedule
  let (tlc, _) ← created.releaseVestingSchedule sampleEscrow now grantee 0
  return { World.initial tlc now with
    released := credit (fun _ => 0) 0 (received created tlc grantee) }

theorem sample_user {value : Nat} (small : value < 2 ^ 159) :
    User sampleEscrow (.ofNat value) := by
  intro index same
  have values : value % 2 ^ 160 =
      (2 ^ 159 + index % 2 ^ 159) % 2 ^ 160 := congrArg Fin.val same
  omega

theorem sample_created {schedule : NewSchedule} {tlc created : Tlc}
    {index now : Nat} (passed : 1 ≤ now)
    (initialized : initTLCV1 grantor = .ok tlc)
    (returned : tlc.createVestingSchedule sampleEscrow 1 grantor schedule =
      .ok (created, index)) :
    Reachable sampleEscrow (World.initial created now) := by
  have grantorUser : User sampleEscrow grantor := sample_user (by decide)
  refine ⟨grantor, tlc, 1, grantorUser, initialized, ?_⟩
  have unopened : tlc.vestingSchedules = [] := by
    simp only [initTLCV1, mint, bind_eq_ok, require_eq_ok, pure_eq_ok]
      at initialized
    obtain ⟨-, -, -, -, rfl⟩ := initialized
    rfl
  have creates : Step sampleEscrow (World.initial tlc 1)
      (World.initial created 1) := by
    refine .create grantorUser ?_ returned
    intro earlier inside
    have empty : (World.initial tlc 1).tlc.vestingSchedules.length = 0 :=
      congrArg List.length unopened
    omega
  have passes : Step sampleEscrow (World.initial created 1)
      (World.initial created now) := .pass passed
  exact (Relation.ReflTransGen.single creates).tail passes

theorem sampleReleased_reachable {now : Nat} (passed : 1 ≤ now)
    (returned : sampleReleased now = .ok world) :
    Reachable sampleEscrow world := by
  simp only [sampleReleased, bind_eq_ok, pure_eq_ok, Prod.exists] at returned
  obtain ⟨tlc, initialized, createdTlc, index, created, releasedTlc,
    amount, released, rfl⟩ := returned
  exact (sample_created passed initialized created).tail
    (.release (sample_user (by decide)) released)

theorem vesting_escrow_solvent_sample : ∃ world schedule,
    sampleReleased 160 = .ok world ∧
      world.tlc.vestingSchedules[0]? = some schedule ∧
      schedule.releasedAmount = 500 ∧
      Solvent sampleEscrow world 0 schedule := by
  have checked : returns (sampleReleased 160) (fun world =>
      world.now = 160 ∧
        world.tlc.vestingSchedules.map VestingSchedule.releasedAmount =
          [500]) = true := by
    decide +kernel
  obtain ⟨world, returned, facts⟩ := returns_iff.mp checked
  obtain ⟨now, released⟩ := of_decide_eq_true facts
  obtain ⟨schedule, rest, schedules, amount, -⟩ :=
    List.map_eq_cons_iff.mp released
  have found : world.tlc.vestingSchedules[0]? = some schedule := by
    rw [schedules]
    rfl
  refine ⟨world, schedule, returned, found, amount, ?_⟩
  exact vesting_escrow_solvent
    (sampleReleased_reachable (by decide) returned) (by rw [now]; decide)
    found

/-- From 64 bits of time on a revocation reads the present as a time before
the end of a schedule that has long been released in full. -/
theorem late_revocation_lacks_tokens : ∃ world schedule,
    sampleReleased (2 ^ 64 + 150) = .ok world ∧
      Reachable sampleEscrow world ∧
      world.tlc.vestingSchedules[0]? = some schedule ∧
      world.tlc.revokeVestingSchedule sampleEscrow world.now grantor 0 0 =
        .error .transferAmountExceedsBalance ∧
      ¬ Solvent sampleEscrow world 0 schedule := by
  have checked : returns (sampleReleased (2 ^ 64 + 150)) (fun world =>
      world.tlc.vestingSchedules.length = 1 ∧
        fails (world.tlc.revokeVestingSchedule sampleEscrow world.now
          grantor 0 0) .transferAmountExceedsBalance = true) = true := by
    decide +kernel
  obtain ⟨world, returned, facts⟩ := returns_iff.mp checked
  obtain ⟨length, failing⟩ := of_decide_eq_true facts
  have failed := fails_iff.mp failing
  have inside : 0 < world.tlc.vestingSchedules.length := by omega
  refine ⟨world, world.tlc.vestingSchedules[0], returned,
    sampleReleased_reachable (by decide) returned,
    List.getElem?_eq_getElem inside, failed, ?_⟩
  intro solvent
  exact solvent.revokes grantor 0 failed

end Sample

end Tlc

end RiverProtocol
