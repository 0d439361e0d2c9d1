import RiverProtocol.Tlc.Votes

/-!
# Votes follow delegations

Whatever users do with their tokens and their schedules, an account has the
votes of the tokens delegated to it, and a later block finds the votes of an
earlier one as they stood at its end.
-/

namespace RiverProtocol

open Checked Outcome Balances Checkpoints

namespace Tlc

/-- The tokens of the accounts that delegate to an account. -/
def delegated (tlc : Tlc) (account : Address) : Nat :=
  groupTotal tlc.delegates tlc.balanceOf account

theorem delegated_le_total (tlc : Tlc) (account : Address) :
    tlc.delegated account ≤ total tlc.balanceOf := by
  rw [← sum_groupTotal tlc.delegates tlc.balanceOf]
  exact le_total (groupTotal tlc.delegates tlc.balanceOf) account

/-- What a user asks of the token. -/
inductive Operation where
  | transfer (sender recipient : Address) (value : Nat)
  | delegate (delegator delegatee : Address)
  | create (now : Nat) (creator : Address) (schedule : NewSchedule)
  | revoke (now : Nat) (sender : Address) (index newEnd : Nat)
  | release (now : Nat) (sender : Address) (index : Nat)
  | delegateEscrow (sender : Address) (index : Nat) (delegatee : Address)

/-- The operation on the token alone. -/
def perform (tlc : Tlc) (escrow : Nat → Address) :
    Operation → Except Error Tlc
  | .transfer sender recipient value => tlc.transfer sender recipient value
  | .delegate delegator delegatee => return tlc.delegate delegator delegatee
  | .create now creator schedule => do
    let (tlc, _) ← tlc.createVestingSchedule escrow now creator schedule
    return tlc
  | .revoke now sender index newEnd => do
    let (tlc, _) ← tlc.revokeVestingSchedule escrow now sender index newEnd
    return tlc
  | .release now sender index => do
    let (tlc, _) ← tlc.releaseVestingSchedule escrow now sender index
    return tlc
  | .delegateEscrow sender index delegatee =>
    tlc.delegateVestingEscrow escrow sender index delegatee

namespace Voting

/-- The operation with its votes. -/
def perform (voting : Voting) (escrow : Nat → Address) (blockNumber : Nat) :
    Operation → Except VotesError Voting
  | .transfer sender recipient value =>
    voting.transfer blockNumber sender recipient value
  | .delegate delegator delegatee =>
    voting.delegate blockNumber delegator delegatee
  | .create now creator schedule => do
    let (voting, _) ←
      voting.createVestingSchedule escrow blockNumber now creator schedule
    return voting
  | .revoke now sender index newEnd => do
    let (voting, _) ←
      voting.revokeVestingSchedule escrow blockNumber now sender index newEnd
    return voting
  | .release now sender index => do
    let (voting, _) ←
      voting.releaseVestingSchedule escrow blockNumber now sender index
    return voting
  | .delegateEscrow sender index delegatee =>
    voting.delegateVestingEscrow escrow blockNumber sender index delegatee

/-- Operations in their blocks. -/
def run (voting : Voting) (escrow : Nat → Address) :
    List (Nat × Operation) → Except VotesError Voting
  | [] => return voting
  | (blockNumber, operation) :: rest => do
    let voting ← voting.perform escrow blockNumber operation
    voting.run escrow rest

variable {voting after later : Voting} {block blockNumber amount value : Nat}
  {sender recipient delegator delegatee src dst account : Address}
  {escrow : Nat → Address}

/-- The votes of an account are the tokens delegated to it. -/
structure Counted (voting : Voting) (block : Nat) : Prop where
  ordered : ∀ account, Ordered (voting.checkpoints account) block
  votes : ∀ account, account ≠ .zero →
    latest (voting.checkpoints account) = voting.tlc.delegated account
  silent : voting.checkpoints .zero = []
  supply : total voting.tlc.balanceOf = initialSupply

/-- What an operation of a block leaves behind. -/
structure Advances (voting : Voting) (block : Nat) (after : Voting) :
    Prop where
  counted : after.Counted block
  past : ∀ account, ∀ timepoint < block,
    valueAt (after.checkpoints account) timepoint =
      valueAt (voting.checkpoints account) timepoint
  supplies : after.totalSupplyCheckpoints = voting.totalSupplyCheckpoints

theorem Counted.mono (counted : voting.Counted block)
    (passed : block ≤ blockNumber) : voting.Counted blockNumber :=
  { counted with
    ordered := fun account => (counted.ordered account).mono passed }

theorem Advances.trans (first : voting.Advances block after)
    (second : after.Advances block later) : voting.Advances block later where
  counted := second.counted
  past account timepoint before :=
    (second.past account timepoint before).trans
      (first.past account timepoint before)
  supplies := second.supplies.trans first.supplies

/-- An operation that moves neither tokens nor delegations. -/
theorem Counted.frame (counted : voting.Counted block)
    (tokens : after.tlc.balanceOf = voting.tlc.balanceOf)
    (delegates : after.tlc.delegates = voting.tlc.delegates)
    (checkpoints : after.checkpoints = voting.checkpoints)
    (supplies : after.totalSupplyCheckpoints =
      voting.totalSupplyCheckpoints) :
    voting.Advances block after := by
  refine ⟨⟨?_, ?_, ?_, ?_⟩, ?_, supplies⟩
  · rw [checkpoints]
    exact counted.ordered
  · intro account delegate
    rw [checkpoints, delegated, tokens, delegates]
    exact counted.votes account delegate
  · rw [checkpoints]
    exact counted.silent
  · rw [tokens]
    exact counted.supply
  · intro account timepoint _
    rw [checkpoints]

/-- The delegated tokens move as the votes do. -/
structure Shifts (src dst : Address) (amount : Nat) (before after : Tlc) :
    Prop where
  supply : total after.balanceOf = total before.balanceOf
  weights : ∀ account,
    after.delegated account + (if src = account then amount else 0) =
      before.delegated account + if dst = account then amount else 0

theorem transfer_shifts {tlc moved : Tlc}
    (returned : tlc.transfer sender recipient value = .ok moved) :
    Shifts (moved.delegates sender) (moved.delegates recipient) value
      tlc moved := by
  obtain ⟨enough, rfl⟩ := transfer_ok returned
  exact ⟨total_move enough, fun account => groupTotal_move enough⟩

theorem delegate_shifts (tlc : Tlc) (delegator delegatee : Address) :
    Shifts (tlc.delegates delegator) delegatee (tlc.balanceOf delegator) tlc
      (tlc.delegate delegator delegatee) :=
  ⟨rfl, groupTotal_regroup tlc.delegates tlc.balanceOf delegator delegatee⟩

theorem Counted.shift {tlc : Tlc}
    {checkpoints : Address → List (Checkpoint Nat)}
    (counted : voting.Counted block)
    (shifts : Shifts src dst amount voting.tlc tlc)
    (moves : Moves block src dst amount voting.checkpoints checkpoints) :
    voting.Advances block { voting with tlc, checkpoints } := by
  refine ⟨⟨moves.ordered, ?_, moves.silent.trans counted.silent,
    shifts.supply.trans counted.supply⟩, moves.past, rfl⟩
  intro account delegate
  have votes := counted.votes account delegate
  have moved := moves.weights account delegate
  have shifted := shifts.weights account
  change latest (checkpoints account) = tlc.delegated account
  omega

/-- Votes that are counted can move with the tokens. -/
theorem Counted.shift_returns {tlc : Tlc} (counted : voting.Counted block)
    (recent : block < 2 ^ 32)
    (shifts : Shifts src dst amount voting.tlc tlc) :
    ∃ checkpoints, moveVotingPower voting.checkpoints block src dst amount =
      .ok checkpoints := by
  have small : initialSupply < 2 ^ 224 := by decide
  refine moveVotingPower_returns counted.ordered recent ?_ ?_
  · intro delegate different
    have shifted := shifts.weights src
    have below := voting.tlc.delegated_le_total src
    rw [if_pos rfl, if_neg (Ne.symm different)] at shifted
    rw [counted.supply] at below
    rw [counted.votes src delegate]
    omega
  · intro delegate different
    have shifted := shifts.weights dst
    have below := tlc.delegated_le_total dst
    rw [if_neg different, if_pos rfl] at shifted
    rw [shifts.supply, counted.supply] at below
    rw [counted.votes dst delegate]
    omega

theorem Counted.transfer (counted : voting.Counted block)
    (returned : voting.transfer block sender recipient value = .ok after) :
    voting.Advances block after := by
  simp only [Voting.transfer, bind_eq_ok, onToken_eq_ok, pure_eq_ok]
    at returned
  obtain ⟨tlc, transferred, checkpoints, moved, rfl⟩ := returned
  exact counted.shift (transfer_shifts transferred)
    (moveVotingPower_ok counted.ordered moved)

theorem Counted.delegate (counted : voting.Counted block)
    (returned : voting.delegate block delegator delegatee = .ok after) :
    voting.Advances block after := by
  simp only [Voting.delegate, bind_eq_ok, pure_eq_ok] at returned
  obtain ⟨checkpoints, moved, rfl⟩ := returned
  exact counted.shift (delegate_shifts voting.tlc delegator delegatee)
    (moveVotingPower_ok counted.ordered moved)

variable {now index newEnd result : Nat} {creator : Address}
  {schedule : NewSchedule}

theorem Counted.push (counted : voting.Counted block)
    (schedule : VestingSchedule) (ignored : Bool) :
    voting.Advances block (voting.pushVestingSchedule schedule ignored) :=
  counted.frame rfl rfl rfl rfl

theorem Counted.set (counted : voting.Counted block) (index : Nat)
    (schedule : VestingSchedule) :
    voting.Advances block (voting.setVestingSchedule index schedule) :=
  counted.frame rfl rfl rfl rfl

theorem Counted.create (counted : voting.Counted block)
    (returned : voting.createVestingSchedule escrow block now creator schedule =
      .ok (after, index)) : voting.Advances block after := by
  simp only [createVestingSchedule, bind_eq_ok, onToken_eq_ok, require_eq_ok,
    pure_eq_ok, Prod.mk.injEq] at returned
  obtain ⟨-, -, -, -, endTime, -, funded, transferred, _, delegated, rfl,
    rfl⟩ := returned
  have funds := (counted.push _ _).counted.transfer transferred
  exact ((counted.push _ _).trans funds).trans
    (funds.counted.delegate delegated)

theorem Counted.revoke (counted : voting.Counted block)
    (returned : voting.revokeVestingSchedule escrow block now sender index
      newEnd = .ok (after, result)) : voting.Advances block after := by
  simp only [revokeVestingSchedule, bind_eq_ok, onToken_eq_ok, require_eq_ok,
    pure_eq_ok, Prod.mk.injEq] at returned
  obtain ⟨_, -, schedule, -, -, -, -, -, -, -, _, -, _, -, returnedAmount, -,
    paid, pays, rfl, rfl⟩ := returned
  have pays : voting.Advances block paid := by
    unfold returnTokens at pays
    split at pays
    · exact counted.transfer pays
    · obtain rfl := pure_eq_ok.mp pays
      exact counted.frame rfl rfl rfl rfl
  exact pays.trans (pays.counted.set index _)

theorem Counted.release (counted : voting.Counted block)
    (returned : voting.releaseVestingSchedule escrow block now sender index =
      .ok (after, result)) : voting.Advances block after := by
  simp only [releaseVestingSchedule, bind_eq_ok, onToken_eq_ok, require_eq_ok,
    pure_eq_ok, Prod.mk.injEq] at returned
  obtain ⟨schedule, -, -, -, releasable, -, -, -, paid, pays, _, -, rfl,
    rfl⟩ := returned
  have pays := counted.transfer pays
  exact pays.trans (pays.counted.set index _)

/-- Every operation keeps the votes counted. -/
theorem Counted.perform (counted : voting.Counted block)
    {operation : Operation}
    (returned : voting.perform escrow block operation = .ok after) :
    voting.Advances block after := by
  cases operation with
  | transfer sender recipient value => exact counted.transfer returned
  | delegate delegator delegatee => exact counted.delegate returned
  | create now creator schedule =>
      simp only [Voting.perform, bind_eq_ok, Prod.exists, pure_eq_ok]
        at returned
      obtain ⟨_, index, created, rfl⟩ := returned
      exact counted.create created
  | revoke now sender index newEnd =>
      simp only [Voting.perform, bind_eq_ok, Prod.exists, pure_eq_ok]
        at returned
      obtain ⟨_, amount, revoked, rfl⟩ := returned
      exact counted.revoke revoked
  | release now sender index =>
      simp only [Voting.perform, bind_eq_ok, Prod.exists, pure_eq_ok]
        at returned
      obtain ⟨_, amount, released, rfl⟩ := returned
      exact counted.release released
  | delegateEscrow sender index delegatee =>
      simp only [Voting.perform, delegateVestingEscrow, bind_eq_ok]
        at returned
      obtain ⟨_, -, _, -, delegated⟩ := returned
      exact counted.delegate delegated

/-- A run keeps the votes counted and the blocks before it as they were. -/
theorem Counted.run {steps : List (Nat × Operation)}
    (counted : voting.Counted block)
    (inOrder : (block :: steps.map Prod.fst).Pairwise (· ≤ ·))
    (passed : ∀ step ∈ steps, step.1 ≤ now) (started : block ≤ now)
    (ran : voting.run escrow steps = .ok after) :
    after.Counted now ∧
      after.totalSupplyCheckpoints = voting.totalSupplyCheckpoints ∧
      ∀ timepoint, (∀ step ∈ steps, timepoint < step.1) → ∀ account,
        valueAt (after.checkpoints account) timepoint =
          valueAt (voting.checkpoints account) timepoint := by
  induction steps generalizing voting block with
  | nil =>
      obtain rfl := pure_eq_ok.mp ran
      exact ⟨counted.mono started, rfl, fun _ _ _ => rfl⟩
  | cons step rest ih =>
      obtain ⟨blockNumber, operation⟩ := step
      obtain ⟨next, performed, ran⟩ := bind_eq_ok.mp ran
      obtain ⟨first, ordered⟩ := List.pairwise_cons.mp inOrder
      have advanced := (counted.mono (first blockNumber
        List.mem_cons_self)).perform performed
      obtain ⟨final, supplies, past⟩ := ih advanced.counted ordered
        (fun step member => passed step (List.mem_cons_of_mem _ member))
        (passed _ List.mem_cons_self) ran
      refine ⟨final, supplies.trans advanced.supplies, ?_⟩
      intro timepoint before account
      rw [past timepoint (fun step member =>
        before step (List.mem_cons_of_mem _ member)) account]
      exact advanced.past account timepoint (before _ List.mem_cons_self)

theorem run_append {steps more : List (Nat × Operation)} :
    voting.run escrow (steps ++ more) = .ok after ↔
      ∃ middle, voting.run escrow steps = .ok middle ∧
        middle.run escrow more = .ok after := by
  induction steps generalizing voting with
  | nil => simp [run]
  | cons step rest ih =>
      simp only [List.cons_append, run, bind_eq_ok, ih]
      constructor
      · rintro ⟨next, performed, middle, ran, rest⟩
        exact ⟨middle, ⟨next, performed, ran⟩, rest⟩
      · rintro ⟨middle, ⟨next, performed, ran⟩, rest⟩
        exact ⟨next, performed, middle, ran, rest⟩

/-- Steps in order split at the end of any block. -/
theorem split_steps {steps : List (Nat × Operation)} (timepoint : Nat)
    (inOrder : (steps.map Prod.fst).Pairwise (· ≤ ·)) :
    ∃ later, steps = steps.filter (·.1 ≤ timepoint) ++ later ∧
      ∀ step ∈ later, timepoint < step.1 := by
  induction steps with
  | nil => exact ⟨[], rfl, fun _ member => absurd member List.not_mem_nil⟩
  | cons step rest ih =>
      obtain ⟨first, ordered⟩ := List.pairwise_cons.mp inOrder
      by_cases past : step.1 ≤ timepoint
      · obtain ⟨later, split, after⟩ := ih ordered
        refine ⟨later, ?_, after⟩
        rw [List.filter_cons_of_pos (by simpa using past), List.cons_append,
          ← split]
      · have none : (step :: rest).filter (·.1 ≤ timepoint) = [] := by
          refine List.filter_eq_nil_iff.mpr fun other member => ?_
          obtain rfl | member := List.mem_cons.mp member
          · simpa using past
          · have := first other.1 (List.mem_map_of_mem member)
            have : timepoint < other.1 := by omega
            simpa using this
        refine ⟨step :: rest, by rw [none, List.nil_append], ?_⟩
        intro other member
        have out := List.filter_eq_nil_iff.mp none other member
        simpa using out

section

variable {α β γ δ : Type}

/-- A call with votes that does to the token what the plain call does. -/
def Mirrors (voted : Except VotesError α) (project : α → β)
    (plain : Except Error β) : Prop :=
  voted.map project = onToken plain

theorem Mirrors.of (plain : Except Error α) :
    Mirrors (onToken plain) id plain := by
  cases plain <;> rfl

theorem Mirrors.require (condition : Prop) [Decidable condition]
    (failure : Error) :
    Mirrors (require condition (.token failure)) id
      (require condition failure) := by
  unfold Mirrors Outcome.require
  split <;> rfl

theorem Mirrors.bind {voted : Except VotesError α} {project : α → β}
    {plain : Except Error β} {next : α → Except VotesError γ}
    {projectNext : γ → δ} {plainNext : β → Except Error δ}
    (first : Mirrors voted project plain)
    (rest : ∀ value, voted = .ok value →
      Mirrors (next value) projectNext (plainNext (project value))) :
    Mirrors (voted >>= next) projectNext (plain >>= plainNext) := by
  unfold Mirrors at first
  cases voted with
  | ok value =>
      cases plain with
      | ok plainValue =>
          have same : project value = plainValue := Except.ok.inj first
          subst same
          exact rest value rfl
      | error failure => cases first
  | error raised =>
      cases plain with
      | ok plainValue => cases first
      | error failure => exact congrArg Except.error (Except.error.inj first)

theorem Mirrors.pure {value : α} {project : α → β} {plainValue : β}
    (same : project value = plainValue) :
    Mirrors (.ok value) project (.ok plainValue) :=
  congrArg Except.ok same

/-- Where the plain call cannot fail, its value may be computed at once. -/
theorem Mirrors.last {voted : Except VotesError α} {project : α → β}
    {plainValue : β} {next : α → γ} {projectNext : γ → δ} {final : δ}
    (first : Mirrors voted project (.ok plainValue))
    (rest : ∀ value, project value = plainValue →
      projectNext (next value) = final) :
    Mirrors (voted >>= fun value => .ok (next value)) projectNext
      (.ok final) := by
  cases voted with
  | ok value => exact .pure (rest value (Except.ok.inj first))
  | error raised => cases first

end

theorem Counted.transfer_mirrors (counted : voting.Counted block)
    (recent : block < 2 ^ 32) :
    Mirrors (voting.transfer block sender recipient value) Voting.tlc
      (voting.tlc.transfer sender recipient value) := by
  unfold Mirrors
  cases transferred : voting.tlc.transfer sender recipient value with
  | error failure =>
      rw [Voting.transfer, transferred]
      rfl
  | ok tlc =>
      obtain ⟨checkpoints, moves⟩ := counted.shift_returns recent
        (transfer_shifts transferred)
      rw [Voting.transfer, transferred]
      change (moveVotingPower _ _ _ _ _ >>= _).map Voting.tlc = _
      rw [moves]
      rfl

theorem Counted.delegate_mirrors (counted : voting.Counted block)
    (recent : block < 2 ^ 32) :
    Mirrors (voting.delegate block delegator delegatee) Voting.tlc
      (.ok (voting.tlc.delegate delegator delegatee)) := by
  obtain ⟨checkpoints, moves⟩ := counted.shift_returns recent
    (delegate_shifts voting.tlc delegator delegatee)
  unfold Mirrors Voting.delegate
  dsimp only
  rw [moves]
  rfl

theorem Counted.create_mirrors (counted : voting.Counted block)
    (recent : block < 2 ^ 32) :
    Mirrors (voting.createVestingSchedule escrow block now creator schedule)
      (fun result => (result.1.tlc, result.2))
      (voting.tlc.createVestingSchedule escrow now creator schedule) := by
  refine (Mirrors.require _ _).bind fun _ _ => ?_
  refine (Mirrors.of _).bind fun _ _ => ?_
  refine (Mirrors.of _).bind fun endTime _ => ?_
  refine ((counted.push _ _).counted.transfer_mirrors recent).bind
    fun funded transferred => ?_
  have funds := (counted.push _ _).counted.transfer transferred
  refine (funds.counted.delegate_mirrors recent).last fun _ same => ?_
  rw [same]

theorem Counted.returnTokens_mirrors (counted : voting.Counted block)
    (recent : block < 2 ^ 32) :
    Mirrors (voting.returnTokens block account creator amount) Voting.tlc
      (voting.tlc.returnTokens account creator amount) := by
  unfold Voting.returnTokens Tlc.returnTokens
  split
  · exact counted.transfer_mirrors recent
  · exact .pure rfl

theorem Counted.revoke_mirrors (counted : voting.Counted block)
    (recent : block < 2 ^ 32) :
    Mirrors (voting.revokeVestingSchedule escrow block now sender index newEnd)
      (fun result => (result.1.tlc, result.2))
      (voting.tlc.revokeVestingSchedule escrow now sender index newEnd) := by
  refine (Mirrors.of _).bind fun newEnd _ => ?_
  refine (Mirrors.of _).bind fun schedule _ => ?_
  refine (Mirrors.require _ _).bind fun _ _ => ?_
  refine (Mirrors.require _ _).bind fun _ _ => ?_
  refine (Mirrors.require _ _).bind fun _ _ => ?_
  refine (Mirrors.of _).bind fun vestedAmountAtOldEnd _ => ?_
  refine (Mirrors.of _).bind fun vestedAmountAtNewEnd _ => ?_
  refine (Mirrors.of _).bind fun returnedAmount _ => ?_
  exact (counted.returnTokens_mirrors recent).bind fun _ _ => .pure rfl

theorem Counted.release_mirrors (counted : voting.Counted block)
    (recent : block < 2 ^ 32) :
    Mirrors (voting.releaseVestingSchedule escrow block now sender index)
      (fun result => (result.1.tlc, result.2))
      (voting.tlc.releaseVestingSchedule escrow now sender index) := by
  refine (Mirrors.of _).bind fun schedule _ => ?_
  refine (Mirrors.require _ _).bind fun _ _ => ?_
  refine (Mirrors.of _).bind fun releasable _ => ?_
  refine (Mirrors.require _ _).bind fun _ _ => ?_
  refine (counted.transfer_mirrors recent).bind fun paid _ => ?_
  exact (Mirrors.of _).bind fun _ _ => .pure rfl

/-- The votes neither stop an operation nor change what it does. -/
theorem Counted.perform_mirrors (counted : voting.Counted block)
    (recent : block < 2 ^ 32) (operation : Operation) :
    Mirrors (voting.perform escrow block operation) Voting.tlc
      (voting.tlc.perform escrow operation) := by
  cases operation with
  | transfer sender recipient value => exact counted.transfer_mirrors recent
  | delegate delegator delegatee => exact counted.delegate_mirrors recent
  | create now creator schedule =>
      exact (counted.create_mirrors recent).bind fun _ _ => .pure rfl
  | revoke now sender index newEnd =>
      exact (counted.revoke_mirrors recent).bind fun _ _ => .pure rfl
  | release now sender index =>
      exact (counted.release_mirrors recent).bind fun _ _ => .pure rfl
  | delegateEscrow sender index delegatee =>
      refine (Mirrors.of _).bind fun schedule _ => ?_
      refine (Mirrors.require _ _).bind fun _ _ => ?_
      exact counted.delegate_mirrors recent

variable {deployed past : Voting} {start : Nat}

theorem total_fresh : total fresh.tlc.balanceOf = 0 :=
  Finset.sum_eq_zero fun _ _ => rfl

theorem delegated_fresh (account : Address) :
    fresh.tlc.delegated account = 0 := by
  have below := fresh.tlc.delegated_le_total account
  rw [total_fresh] at below
  exact Nat.le_zero.mp below

/-- Right after its initializer nobody delegates and nothing is written but
the supply. -/
theorem initTLCV1_ok
    (initialized : initTLCV1 start account = .ok deployed) :
    deployed.Counted start ∧
      deployed.totalSupplyCheckpoints = [⟨start, initialSupply⟩] ∧
      ∀ account, deployed.checkpoints account = [] := by
  simp only [initTLCV1, Voting.mint, Tlc.mint, bind_eq_ok, require_eq_ok,
    onToken_eq_ok, pure_eq_ok] at initialized
  obtain ⟨-, -, tlc, ⟨-, -, rfl⟩, totalSupply, added, checkpoints, moved, -,
    -, supplies, written, rfl⟩ := initialized
  have unmoved : moveVotingPower fresh.checkpoints start .zero .zero
      initialSupply = .ok fresh.checkpoints := rfl
  obtain rfl : fresh.checkpoints = checkpoints :=
    Except.ok.inj (unmoved.symm.trans moved)
  obtain ⟨newWeight, weighed, rfl⟩ := writeCheckpoint_ok written
  obtain ⟨-, rfl⟩ := uadd_eq_ok.mp weighed
  refine ⟨⟨fun _ => .nil, ?_, rfl, ?_⟩, rfl, fun _ => rfl⟩
  · intro other delegate
    have credited := groupTotal_update fresh.tlc.delegates fresh.tlc.balanceOf
      account (fresh.tlc.balanceOf account + initialSupply) other
    have none := delegated_fresh other
    have nobody : fresh.tlc.delegates account ≠ other := Ne.symm delegate
    rw [if_neg nobody, if_neg nobody, Nat.add_zero, Nat.add_zero] at credited
    exact (credited.trans none).symm
  · rw [total_credit, total_fresh, Nat.zero_add]

theorem getVotes_eq (voting : Voting) (account : Address) :
    voting.getVotes account = latest (voting.checkpoints account) := by
  unfold getVotes
  generalize voting.checkpoints account = ckpts
  induction ckpts using List.reverseRecOn with
  | nil => rfl
  | append_singleton front last _ => simp [unsafeAccess]

theorem getPastVotes_eq (counted : voting.Counted now)
    (timed : now < 2 ^ 48) {timepoint : Nat} (past : timepoint < now)
    (account : Address) :
    voting.getPastVotes now account timepoint =
      .ok (valueAt (voting.checkpoints account) timepoint) := by
  have ticks : clock now = .ok now := safeCast_eq_ok.mpr ⟨timed, rfl⟩
  rw [getPastVotes, ticks, ok_bind, require_of past, ok_bind,
    (counted.ordered account).lookup_eq]
  rfl

theorem getPastTotalSupply_eq
    (supplies : voting.totalSupplyCheckpoints = [⟨start, initialSupply⟩])
    (timed : now < 2 ^ 48) {timepoint : Nat} (past : timepoint < now) :
    voting.getPastTotalSupply now timepoint =
      .ok (if start ≤ timepoint then initialSupply else 0) := by
  have ticks : clock now = .ok now := safeCast_eq_ok.mpr ⟨timed, rfl⟩
  have ordered : Ordered [⟨start, initialSupply⟩] start :=
    Ordered.nil.write le_rfl initialSupply
  rw [getPastTotalSupply, ticks, ok_bind, require_of past, ok_bind, supplies,
    ordered.lookup_eq]
  rfl

/-- The votes of a block that later blocks remember. -/
theorem Counted.remembers {steps more : List (Nat × Operation)}
    {timepoint : Nat} (counted : voting.Counted block)
    (inOrder : (block :: (steps ++ more).map Prod.fst).Pairwise (· ≤ ·))
    (started : block ≤ timepoint) (passed : ∀ step ∈ steps, step.1 ≤ timepoint)
    (later : ∀ step ∈ more, timepoint < step.1)
    (ran : voting.run escrow steps = .ok past)
    (ranMore : past.run escrow more = .ok after) (account : Address) :
    valueAt (after.checkpoints account) timepoint =
      past.getVotes account := by
  obtain ⟨first, ordered⟩ := List.pairwise_cons.mp inOrder
  rw [List.map_append] at first ordered
  obtain ⟨before, behind, -⟩ := List.pairwise_append.mp ordered
  obtain ⟨countedPast, -, -⟩ := counted.run
    (List.pairwise_cons.mpr ⟨fun blockNumber member =>
      first blockNumber (List.mem_append_left _ member), before⟩)
    passed started ran
  have laterInOrder :
      (timepoint :: more.map Prod.fst).Pairwise (· ≤ ·) := by
    refine List.pairwise_cons.mpr ⟨fun blockNumber member => ?_, behind⟩
    obtain ⟨step, isStep, rfl⟩ := List.mem_map.mp member
    exact (later step isStep).le
  -- any bound on the blocks will do
  obtain ⟨-, -, kept⟩ := countedPast.run laterInOrder
    (fun step member => List.single_le_sum (fun _ _ => Nat.zero_le _) _
      (List.mem_cons_of_mem timepoint (List.mem_map_of_mem member)))
    (List.single_le_sum (fun _ _ => Nat.zero_le _) _ List.mem_cons_self)
    ranMore
  rw [kept timepoint later account, getVotes_eq]
  exact valueAt_past (countedPast.ordered account).past

/-- From its deployment on, an account has the votes of the tokens delegated
to it, together no more than the supply; any earlier block is remembered as it
was at its end; and the votes never get in the way of what users do. -/
theorem votes_follow_delegations {steps : List (Nat × Operation)}
    (initialized : initTLCV1 start account = .ok deployed)
    (inOrder : (start :: steps.map Prod.fst).Pairwise (· ≤ ·))
    (ran : deployed.run escrow steps = .ok voting)
    (passed : ∀ blockNumber ∈ start :: steps.map Prod.fst,
      blockNumber ≤ now) :
    voting.getVotes .zero = 0 ∧
      (∀ delegatee, delegatee ≠ .zero →
        voting.getVotes delegatee = voting.tlc.delegated delegatee) ∧
      ∑ delegatee, voting.getVotes delegatee ≤ initialSupply ∧
      (now < 2 ^ 48 → ∀ timepoint < now, ∃ past,
        deployed.run escrow (steps.filter (·.1 ≤ timepoint)) = .ok past ∧
        (∀ delegatee, voting.getPastVotes now delegatee timepoint =
          .ok (past.getVotes delegatee)) ∧
        voting.getPastTotalSupply now timepoint =
          .ok (if start ≤ timepoint then initialSupply else 0)) ∧
      (now < 2 ^ 32 → ∀ operation,
        (voting.perform escrow now operation).map Voting.tlc =
          onToken (voting.tlc.perform escrow operation)) := by
  obtain ⟨countedFirst, supplies, unwritten⟩ := initTLCV1_ok initialized
  obtain ⟨first, ordered⟩ := List.pairwise_cons.mp inOrder
  have started : start ≤ now := passed start List.mem_cons_self
  obtain ⟨counted, sameSupplies, -⟩ := countedFirst.run inOrder
    (fun step member => passed step.1
      (List.mem_cons_of_mem _ (List.mem_map_of_mem member))) started ran
  have silent : voting.getVotes .zero = 0 := by
    rw [getVotes_eq, counted.silent]
    rfl
  have votes : ∀ delegatee, delegatee ≠ .zero →
      voting.getVotes delegatee = voting.tlc.delegated delegatee := by
    intro delegatee delegate
    rw [getVotes_eq]
    exact counted.votes delegatee delegate
  refine ⟨silent, votes, ?_, ?_, fun recent operation =>
    counted.perform_mirrors recent operation⟩
  · calc
      ∑ delegatee, voting.getVotes delegatee ≤
          ∑ delegatee, voting.tlc.delegated delegatee := by
        refine Finset.sum_le_sum fun delegatee _ => ?_
        by_cases delegate : delegatee = .zero
        · rw [delegate, silent]
          exact Nat.zero_le _
        · exact (votes delegatee delegate).le
      _ = total voting.tlc.balanceOf := sum_groupTotal _ _
      _ = initialSupply := counted.supply
  · intro timed timepoint before
    obtain ⟨later, split, after⟩ := split_steps timepoint ordered
    rw [split] at ran
    obtain ⟨past, ranPast, ranLater⟩ := run_append.mp ran
    refine ⟨past, ranPast, fun delegatee => ?_,
      getPastTotalSupply_eq (sameSupplies.trans supplies) timed before⟩
    rw [getPastVotes_eq counted timed before]
    by_cases deployedBefore : start ≤ timepoint
    · rw [split] at inOrder
      rw [countedFirst.remembers inOrder deployedBefore
        (fun step member => by simpa using (List.mem_filter.mp member).2)
        after ranPast ranLater]
    · -- before the deployment there was nothing to vote with
      have since : ∀ step ∈ steps, timepoint < step.1 := by
        intro step member
        have := first step.1 (List.mem_map_of_mem member)
        omega
      have none : steps.filter (·.1 ≤ timepoint) = [] :=
        List.filter_eq_nil_iff.mpr fun step member => by
          simpa using since step member
      rw [none] at ranPast split
      obtain rfl := pure_eq_ok.mp ranPast
      obtain rfl : steps = later := split
      obtain ⟨-, -, kept⟩ := countedFirst.run inOrder
        (fun step member => passed step.1
          (List.mem_cons_of_mem _ (List.mem_map_of_mem member))) started
        ranLater
      rw [kept timepoint since delegatee, getVotes_eq, unwritten delegatee]
      rfl

section Sample

def sampleHolder : Address := .ofNat 1

def sampleMember : Address := .ofNat 2

/-- The holder delegates to itself in block 2 and funds a schedule of the
member in block 5. -/
def sampleSteps : List (Nat × Operation) :=
  [(2, .delegate sampleHolder sampleHolder),
    (5, .create 1 sampleHolder
      { start := 100
        cliffDuration := 0
        duration := 100
        periodDuration := 50
        lockDuration := 0
        revocable := true
        amount := 1000
        beneficiary := sampleMember
        delegatee := .zero
        ignoreGlobalUnlockSchedule := true })]

theorem votes_follow_delegations_sample : ∃ deployed voting past : Voting,
    initTLCV1 1 sampleHolder = .ok deployed ∧
      deployed.run (fun index => .ofNat (100 + index)) sampleSteps =
        .ok voting ∧
      voting.getVotes sampleMember = 1000 ∧
      voting.getVotes sampleMember = voting.tlc.delegated sampleMember ∧
      past.getVotes sampleHolder = initialSupply ∧
      voting.getPastVotes 9 sampleHolder 4 = .ok (past.getVotes sampleHolder) ∧
      voting.getPastTotalSupply 9 4 = .ok initialSupply := by
  have checked : returns (initTLCV1 1 sampleHolder) (fun deployed =>
      returns (deployed.run (fun index => .ofNat (100 + index)) sampleSteps)
        (fun voting => voting.getVotes sampleMember = 1000) &&
      returns (deployed.run (fun index => .ofNat (100 + index))
          (sampleSteps.filter (·.1 ≤ 4)))
        (fun past => past.getVotes sampleHolder = initialSupply)) = true := by
    decide +kernel
  obtain ⟨deployed, initialized, facts⟩ := returns_iff.mp checked
  obtain ⟨later, earlier⟩ := Bool.and_eq_true_iff.mp facts
  obtain ⟨voting, ran, member⟩ := returns_iff.mp later
  obtain ⟨first, ranFirst, holder⟩ := returns_iff.mp earlier
  have passed : ∀ blockNumber ∈ 1 :: sampleSteps.map Prod.fst,
      blockNumber ≤ 9 := by decide
  obtain ⟨-, votes, -, remembered, -⟩ :=
    votes_follow_delegations initialized (by decide) ran passed
  obtain ⟨past, ranPast, pastVotes, pastSupply⟩ :=
    remembered (by decide) 4 (by decide)
  obtain rfl : first = past := Except.ok.inj (ranFirst.symm.trans ranPast)
  exact ⟨deployed, voting, first, initialized, ran, of_decide_eq_true member,
    votes sampleMember (by decide), of_decide_eq_true holder,
    pastVotes sampleHolder, pastSupply⟩

end Sample

end Voting

end Tlc

end RiverProtocol
