import RiverProtocol.Oracle.Agreement

/-!
# Votes in any order

Where the quorum is more than half of the members, the report an epoch sends
to River depends on what each member votes for, and not on the order of the
votes.
-/

namespace RiverProtocol

open Checked Outcome

open Poll (Ballot seats votesFor)

/-- A member and the report it votes for. -/
abbrev Vote : Type := Address × ConsensusLayerReport

section Assignment

variable (members : List Address)
  (assignment : Address → Option ConsensusLayerReport)

/-- The votes of the members that have a report. -/
def assignedVotes : List Vote :=
  members.filterMap fun member =>
    (assignment member).map fun report => (member, report)

/-- The number of members that support a report. -/
def supporters (report : ConsensusLayerReport) : Nat :=
  members.countP fun member => assignment member = some report

/-- A report that a quorum supports, if there is one. -/
def elected (quorum : Nat) : Option ConsensusLayerReport :=
  (members.filterMap assignment).find? fun report =>
    quorum ≤ supporters members assignment report

end Assignment

/-- The ballots of votes, cast from the seats of the members. -/
def ballotsOf (members : List Address) (votes : List Vote) :
    List (Ballot ConsensusLayerReport) :=
  votes.map fun vote => ⟨members.idxOf vote.1, vote.2⟩

theorem ballotsOf_concat (members : List Address) (votes : List Vote)
    (vote : Vote) : ballotsOf members (votes ++ [vote]) =
      ballotsOf members votes ++ [⟨members.idxOf vote.1, vote.2⟩] := by
  rw [ballotsOf, List.map_append, List.map_singleton]
  rfl

section Assignment

variable {members : List Address}
  {assignment : Address → Option ConsensusLayerReport} {order : List Vote}
  {vote : Vote} {report : ConsensusLayerReport}

theorem mem_assignedVotes : vote ∈ assignedVotes members assignment ↔
    vote.1 ∈ members ∧ assignment vote.1 = some vote.2 := by
  obtain ⟨sender, report⟩ := vote
  simp only [assignedVotes, List.mem_filterMap, Option.map_eq_some_iff,
    Prod.mk.injEq]
  constructor
  · rintro ⟨member, known, assigned, found, rfl, rfl⟩
    exact ⟨known, found⟩
  · rintro ⟨known, found⟩
    exact ⟨sender, known, report, found, rfl, rfl⟩

theorem assignedVotes_senders :
    (assignedVotes members assignment).map Prod.fst =
      members.filter fun member => (assignment member).isSome := by
  rw [assignedVotes, List.map_filterMap, ← List.filterMap_eq_filter]
  congr 1
  funext member
  cases found : assignment member <;> simp [Option.guard, found]

theorem countP_assignedVotes :
    ((assignedVotes members assignment).countP fun vote => vote.2 = report) =
      supporters members assignment report := by
  rw [assignedVotes, supporters, List.countP_filterMap]
  congr 1
  funext member
  cases assignment member <;> simp

theorem votesFor_assigned {Variant : Type} [DecidableEq Variant]
    {reportChecksum : ConsensusLayerReport → Variant}
    (injective : Function.Injective reportChecksum)
    (reordered : order.Perm (assignedVotes members assignment)) :
    votesFor reportChecksum (ballotsOf members order)
      (reportChecksum report) = supporters members assignment report := by
  rw [ballotsOf, Poll.votesFor_perm (reordered.map _), votesFor,
    List.countP_map, ← countP_assignedVotes]
  apply List.countP_congr
  intro vote _
  exact decide_eq_true_iff.trans
    (injective.eq_iff.trans decide_eq_true_iff.symm)

theorem elected_eq_some {quorum : Nat}
    (majority : members.length < 2 * quorum) :
    elected members assignment quorum = some report ↔
      quorum ≤ supporters members assignment report := by
  have counted (report : ConsensusLayerReport) :
      votesFor id (ballotsOf members (assignedVotes members assignment))
        report = supporters members assignment report :=
    votesFor_assigned Function.injective_id (List.Perm.refl _)
  have few : (ballotsOf members
      (assignedVotes members assignment)).length < 2 * quorum := by
    rw [ballotsOf, List.length_map]
    exact (List.length_filterMap_le _ _).trans_lt majority
  unfold elected
  constructor
  · intro found
    have reached := List.find?_some found
    exact of_decide_eq_true reached
  · intro supported
    obtain ⟨member, known, assigned⟩ := List.countP_pos_iff.mp
      (show 0 < supporters members assignment report by omega)
    have listed := List.mem_filterMap.mpr
      ⟨member, known, of_decide_eq_true assigned⟩
    cases found : (members.filterMap assignment).find? fun report =>
        quorum ≤ supporters members assignment report with
    | none =>
        have refused := List.find?_eq_none.mp found report listed
        exact absurd (decide_eq_true supported) refused
    | some other =>
        have reached := List.find?_some found
        rw [decide_eq_true_eq, ← counted] at reached
        rw [← counted] at supported
        exact congrArg some (Poll.key_unique few reached supported)

end Assignment

namespace Oracle

variable {Variant : Type} [DecidableEq Variant] {E : Type}

/-- A vote, which changes nothing where it reverts. -/
def castVote (reportChecksum : ConsensusLayerReport → Variant)
    (river : OracleCalls E) (state : Oracle Variant × E) (vote : Vote) :
    Oracle Variant × E :=
  match state.1.reportConsensusLayerData reportChecksum river state.2 vote.1
    vote.2 with
  | .ok after => after
  | .error _ => state

def castVotes (reportChecksum : ConsensusLayerReport → Variant)
    (river : OracleCalls E) (state : Oracle Variant × E)
    (votes : List Vote) : Oracle Variant × E :=
  votes.foldl (castVote reportChecksum river) state

variable {reportChecksum : ConsensusLayerReport → Variant}
  {river : OracleCalls E} {oracle : Oracle Variant} {world : E}

/-- A seat that has a bit and has not voted may vote. -/
theorem vote_returns {sender : Address} {memberIndex : Nat}
    {report : ConsensusLayerReport} {votes : Nat}
    (inside : memberIndex < 256)
    (fresh : memberIndex ∉ Bitmap.members oracle.reportsPositions)
    (looked : (oracle.getReportVariantIndexAndVotes
      (reportChecksum report)).2 = votes)
    (fits : votes + 1 < wordLimit) (next : report.epoch + 1 < wordLimit)
    (accepts : oracle.quorum ≤ votes + 1 →
      ∃ worldAfter, river.setConsensusLayerData world report =
        .ok worldAfter) :
    ∃ after, vote reportChecksum river world oracle sender memberIndex
      report = .ok after := by
  subst looked
  have free := get_eq_false.mpr ⟨inside, fresh⟩
  simp only [vote, bind_eq_ok, require_eq_ok, uadd_eq_ok]
  by_cases reached : oracle.quorum ≤ (oracle.getReportVariantIndexAndVotes
      (reportChecksum report)).2 + 1
  · obtain ⟨worldAfter, accepted⟩ := accepts reached
    refine ⟨((oracle.voted sender memberIndex (reportChecksum report) report
      ((oracle.getReportVariantIndexAndVotes (reportChecksum report)).2 +
        1)).decided report, worldAfter), (), free, _, ⟨fits, rfl⟩,
      (if_pos reached).trans ?_⟩
    exact pushReport_eq_ok.mpr ⟨next, accepted, rfl⟩
  · obtain ⟨counted, counting⟩ := (oracle.voted sender memberIndex
      (reportChecksum report) report _).countVote_returns rfl fits
    refine ⟨(counted, world), (), free, _, ⟨fits, rfl⟩,
      (if_neg reached).trans ?_⟩
    simp only [bind_eq_ok]
    exact ⟨counted, counting, rfl⟩

variable {origin after : Oracle Variant} {worldAfter : E} {epoch : Nat}
  {votes : List Vote} {sender : Address} {report : ConsensusLayerReport}

/-- The oracle after votes that were all counted. -/
structure Pending (reportChecksum : ConsensusLayerReport → Variant)
    (origin : Oracle Variant) (epoch : Nat) (votes : List Vote)
    (oracle : Oracle Variant) : Prop where
  recent : oracle.lastEpochId ≤ epoch
  members_eq : oracle.members = origin.members
  quorum_eq : oracle.quorum = origin.quorum
  registered : Registered (ballotsOf origin.members votes)
    (oracle.startEpoch epoch)
  tallied : Tallied reportChecksum (ballotsOf origin.members votes)
    (oracle.startEpoch epoch)
  silent : oracle.pushedReports = origin.pushedReports

/-- The oracle and River after votes that sent one report. -/
structure Decided (reportChecksum : ConsensusLayerReport → Variant)
    (river : OracleCalls E) (origin : Oracle Variant) (world : E)
    (votes : List Vote) (report : ConsensusLayerReport)
    (oracle : Oracle Variant) (worldAfter : E) : Prop where
  reached : origin.quorum ≤ votesFor reportChecksum
    (ballotsOf origin.members votes) (reportChecksum report)
  members_eq : oracle.members = origin.members
  lastEpochId_eq : oracle.lastEpochId = report.epoch + 1
  pushed : oracle.pushedReports = origin.pushedReports ++ [report]
  accepted : river.setConsensusLayerData world report = .ok worldAfter

theorem votesFor_own : votesFor reportChecksum
    (ballotsOf origin.members (votes ++ [(sender, report)]))
    (reportChecksum report) =
      votesFor reportChecksum (ballotsOf origin.members votes)
        (reportChecksum report) + 1 := by
  rw [ballotsOf_concat, Poll.votesFor_concat, if_pos rfl]

namespace Pending

theorem start (recent : oracle.lastEpochId ≤ epoch)
    (positions : oracle.reportsPositions = 0)
    (variants : oracle.reportsVariants = []) :
    Pending reportChecksum oracle epoch [] oracle := by
  have empty : (oracle.startEpoch epoch).reportsPositions = 0 ∧
      (oracle.startEpoch epoch).reportsVariants = [] := by
    unfold startEpoch
    split
    · exact ⟨rfl, rfl⟩
    · exact ⟨positions, variants⟩
  exact ⟨recent, rfl, rfl, Registered.cleared empty.1,
    Tallied.cleared empty.2, rfl⟩

theorem free (pending : Pending reportChecksum origin epoch votes oracle)
    (known : sender ∈ origin.members) (fresh : sender ∉ votes.map Prod.fst) :
    origin.members.idxOf sender ∉
      Bitmap.members (oracle.startEpoch epoch).reportsPositions := by
  rw [pending.registered.positions, List.mem_toFinset, seats, ballotsOf,
    List.map_map]
  intro voted
  obtain ⟨vote, cast, same⟩ := List.mem_map.mp voted
  have equal := (List.idxOf_inj known).mp same.symm
  exact fresh (equal ▸ List.mem_map_of_mem cast)

theorem votes_fit (pending : Pending reportChecksum origin epoch votes oracle)
    (variant : Variant) : votesFor reportChecksum
      (ballotsOf origin.members votes) variant + 1 < wordLimit := by
  have few : votesFor reportChecksum (ballotsOf origin.members votes)
      variant ≤ 256 := by
    calc
      _ ≤ (ballotsOf origin.members votes).length := Poll.votesFor_le_length
      _ = (Bitmap.members (oracle.startEpoch epoch).reportsPositions).card :=
        pending.registered.card_positions.symm
      _ ≤ 256 := Bitmap.card_members_le _
  exact (Nat.succ_le_succ few).trans_lt (by decide)

/-- The ballot of the member is registered. -/
theorem voted {voteCount : Nat}
    (pending : Pending reportChecksum origin report.epoch votes oracle)
    (known : sender ∈ origin.members) (fresh : sender ∉ votes.map Prod.fst)
    (small : origin.members.length ≤ 256) :
    Registered (ballotsOf origin.members (votes ++ [(sender, report)]))
      ((oracle.startEpoch report.epoch).voted sender
        (origin.members.idxOf sender) (reportChecksum report) report
        voteCount) := by
  obtain ⟨epoch_eq, members_eq, -⟩ := startEpoch_frame pending.recent
  have seated : origin.members.idxOf sender < origin.members.length :=
    List.idxOf_lt_length_of_mem known
  have length_eq := congrArg List.length
    (members_eq.trans pending.members_eq)
  rw [ballotsOf_concat]
  exact pending.registered.voted (seated.trans_le small)
    (pending.free known fresh) (seated.trans_eq length_eq.symm) epoch_eq.symm

/-- The oracle goes on after a vote that is counted. -/
theorem counted {memberIndex voteCount : Nat}
    (pending : Pending reportChecksum origin report.epoch votes oracle)
    (registered : Registered
      (ballotsOf origin.members (votes ++ [(sender, report)]))
      ((oracle.startEpoch report.epoch).voted sender memberIndex
        (reportChecksum report) report voteCount))
    (short : votesFor reportChecksum (ballotsOf origin.members votes)
      (reportChecksum report) + 1 < oracle.quorum)
    (counting : Counted ((oracle.startEpoch report.epoch).voted sender
      memberIndex (reportChecksum report) report voteCount)
      (reportChecksum report) (votesFor reportChecksum
        (ballotsOf origin.members votes) (reportChecksum report)) after) :
    Pending reportChecksum origin report.epoch (votes ++ [(sender, report)])
      after := by
  obtain ⟨epoch_eq, members_eq, quorum_eq⟩ := startEpoch_frame pending.recent
  obtain ⟨members_after, quorum_after, epoch_after, effects_after⟩ :=
    counting.frame
  have current : after.lastEpochId = report.epoch :=
    epoch_after.trans epoch_eq
  have continued := startEpoch_of_ge current.ge
  have enough := short.trans_eq quorum_eq.symm
  refine ⟨current.le, (members_after.trans members_eq).trans
    pending.members_eq, (quorum_after.trans quorum_eq).trans
    pending.quorum_eq, ?_, ?_, ?_⟩
  · rw [continued]
    exact registered.of_counted counting
  · rw [continued, ballotsOf_concat]
    exact pending.tallied.voted.cast rfl enough counting
  · rw [pushedReports, effects_after]
    exact (pushedReports_voted.trans
      (startEpoch_pushedReports _)).trans pending.silent

/-- A member that has not voted votes: its vote is counted, or it is the one
that sends the report. -/
theorem cast
    (pending : Pending reportChecksum origin report.epoch votes oracle)
    (known : sender ∈ origin.members) (fresh : sender ∉ votes.map Prod.fst)
    (small : origin.members.length ≤ 256)
    (next : report.epoch + 1 < wordLimit)
    (valid : river.isValidEpoch world report.epoch = .ok true)
    (accepts : origin.quorum ≤ votesFor reportChecksum
        (ballotsOf origin.members (votes ++ [(sender, report)]))
        (reportChecksum report) →
      ∃ worldAfter, river.setConsensusLayerData world report =
        .ok worldAfter) :
    ∃ after worldAfter, oracle.reportConsensusLayerData reportChecksum river
        world sender report = .ok (after, worldAfter) ∧
      ((worldAfter = world ∧ Pending reportChecksum origin report.epoch
          (votes ++ [(sender, report)]) after) ∨
        Decided reportChecksum river origin world
          (votes ++ [(sender, report)]) report after worldAfter) := by
  obtain ⟨-, members_eq, quorum_eq⟩ := startEpoch_frame pending.recent
  have quorum_same := quorum_eq.trans pending.quorum_eq
  have seated : origin.members.idxOf sender < 256 :=
    (List.idxOf_lt_length_of_mem known).trans_le small
  have found : OracleMembers.indexOf oracle.members sender =
      some (origin.members.idxOf sender) := by
    rw [pending.members_eq]
    exact OracleMembers.indexOf_of_mem known
  have votes_eq := pending.tallied.votes_eq (reportChecksum report)
  rw [votesFor_own, ← quorum_same] at accepts
  have returns : ∃ after, vote reportChecksum river world
      (oracle.startEpoch report.epoch) sender (origin.members.idxOf sender)
      report = .ok after :=
    vote_returns seated (pending.free known fresh) votes_eq
      (pending.votes_fit _) next accepts
  obtain ⟨⟨after, worldAfter⟩, voting⟩ := returns
  have returned := reportConsensusLayerData_eq_ok.mpr
    ⟨_, found, pending.recent, valid, voting⟩
  refine ⟨after, worldAfter, returned, ?_⟩
  obtain ⟨-, -, count, looked, outcome⟩ := vote_ok voting
  rw [votes_eq] at looked
  subst looked
  cases outcome with
  | decided reached answered =>
      refine .inr ⟨?_, members_eq.trans pending.members_eq, rfl, ?_,
        answered⟩
      · rw [votesFor_own, ← quorum_same]
        exact reached
      · rw [pushedReports_decided, pushedReports_voted,
          startEpoch_pushedReports, pending.silent]
  | counted short counting =>
      exact .inl ⟨rfl, pending.counted (pending.voted known fresh small)
        (short.trans_eq quorum_eq) counting⟩

end Pending

theorem Decided.refuses {winner : ConsensusLayerReport}
    (decided : Decided reportChecksum river origin world votes winner oracle
      worldAfter)
    (known : sender ∈ origin.members) (current : report.epoch = winner.epoch) :
    oracle.reportConsensusLayerData reportChecksum river worldAfter sender
      report = .error (.epochTooOld winner.epoch (winner.epoch + 1)) := by
  have late : report.epoch < oracle.lastEpochId := by
    rw [current, decided.lastEpochId_eq]
    exact Nat.lt_succ_self _
  rw [← decided.members_eq] at known
  rw [reportConsensusLayerData_tooOld known late, current,
    decided.lastEpochId_eq]

/-- Different members vote for one epoch at a cleared oracle, and River takes
the epoch. -/
structure Polling (reportChecksum : ConsensusLayerReport → Variant)
    (river : OracleCalls E) (origin : Oracle Variant) (world : E)
    (epoch : Nat) (votes : List Vote) : Prop where
  recent : origin.lastEpochId ≤ epoch
  positions : origin.reportsPositions = 0
  variants : origin.reportsVariants = []
  small : origin.members.length ≤ 256
  next : epoch + 1 < wordLimit
  valid : river.isValidEpoch world epoch = .ok true
  accepts : ∀ report, origin.quorum ≤ votesFor reportChecksum
      (ballotsOf origin.members votes) (reportChecksum report) →
    ∃ worldAfter, river.setConsensusLayerData world report = .ok worldAfter
  distinct : (votes.map Prod.fst).Nodup
  known : ∀ vote ∈ votes, vote.1 ∈ origin.members
  current : ∀ vote ∈ votes, vote.2.epoch = epoch

/-- How the votes of a poll leave the oracle and River. -/
inductive Polled (reportChecksum : ConsensusLayerReport → Variant)
    (river : OracleCalls E) (origin : Oracle Variant) (world : E)
    (epoch : Nat) (votes : List Vote) : Oracle Variant × E → Prop where
  | pending {oracle : Oracle Variant} :
      Pending reportChecksum origin epoch votes oracle →
      Polled reportChecksum river origin world epoch votes (oracle, world)
  | decided {report : ConsensusLayerReport} {oracle : Oracle Variant}
      {worldAfter : E} : report.epoch = epoch →
      Decided reportChecksum river origin world votes report oracle
        worldAfter →
      Polled reportChecksum river origin world epoch votes
        (oracle, worldAfter)

theorem castVote_of_ok {state next : Oracle Variant × E} {vote : Vote}
    (returned : state.1.reportConsensusLayerData reportChecksum river state.2
      vote.1 vote.2 = .ok next) :
    castVote reportChecksum river state vote = next := by
  rw [castVote, returned]

theorem castVote_of_error {state : Oracle Variant × E} {vote : Vote}
    {failure : Error}
    (reverted : state.1.reportConsensusLayerData reportChecksum river state.2
      vote.1 vote.2 = .error failure) :
    castVote reportChecksum river state vote = state := by
  rw [castVote, reverted]

theorem castVotes_concat {state : Oracle Variant × E} {vote : Vote} :
    castVotes reportChecksum river state (votes ++ [vote]) =
      castVote reportChecksum river
        (castVotes reportChecksum river state votes) vote :=
  List.foldl_concat ..

namespace Polling

theorem of_append {later : List Vote}
    (polling : Polling reportChecksum river origin world epoch
      (votes ++ later)) :
    Polling reportChecksum river origin world epoch votes := by
  refine ⟨polling.recent, polling.positions, polling.variants, polling.small,
    polling.next, polling.valid, ?_, ?_, ?_, ?_⟩
  · intro report reached
    apply polling.accepts report (reached.trans ?_)
    rw [ballotsOf, ballotsOf, List.map_append]
    exact Poll.votesFor_le_append _
  · have distinct := polling.distinct
    rw [List.map_append] at distinct
    exact distinct.of_append_left
  · intro vote cast
    exact polling.known vote (List.mem_append_left _ cast)
  · intro vote cast
    exact polling.current vote (List.mem_append_left _ cast)

/-- Before a report is sent, the next vote of the poll returns. -/
theorem cast
    (polling : Polling reportChecksum river origin world epoch
      (votes ++ [(sender, report)]))
    (pending : Pending reportChecksum origin epoch votes oracle) :
    ∃ after worldAfter, oracle.reportConsensusLayerData reportChecksum river
        world sender report = .ok (after, worldAfter) ∧
      Polled reportChecksum river origin world epoch
        (votes ++ [(sender, report)]) (after, worldAfter) := by
  have last : (sender, report) ∈ votes ++ [(sender, report)] :=
    List.mem_append_right _ (List.mem_singleton_self _)
  have distinct := polling.distinct
  rw [List.map_append, List.nodup_append] at distinct
  have fresh : sender ∉ votes.map Prod.fst := by
    intro voted
    exact distinct.2.2 sender voted sender (List.mem_singleton_self _) rfl
  obtain rfl : report.epoch = epoch := polling.current _ last
  obtain ⟨after, worldAfter, returned, outcome⟩ :=
    pending.cast (polling.known _ last) fresh polling.small polling.next
      polling.valid (polling.accepts report)
  refine ⟨after, worldAfter, returned, ?_⟩
  rcases outcome with ⟨rfl, continued⟩ | decided
  · exact .pending continued
  · exact .decided rfl decided

/-- One more vote of the poll. -/
theorem step {vote : Vote} {state : Oracle Variant × E}
    (polling : Polling reportChecksum river origin world epoch
      (votes ++ [vote]))
    (polled : Polled reportChecksum river origin world epoch votes state) :
    Polled reportChecksum river origin world epoch (votes ++ [vote])
      (castVote reportChecksum river state vote) := by
  have last : vote ∈ votes ++ [vote] :=
    List.mem_append_right _ (List.mem_singleton_self _)
  cases polled with
  | pending pending =>
      obtain ⟨after, worldAfter, returned, outcome⟩ := polling.cast pending
      rw [castVote_of_ok returned]
      exact outcome
  | @decided winner oracle worldAfter same decided =>
      have current := polling.current vote last
      have refused := decided.refuses (polling.known vote last)
        (current.trans same.symm)
      rw [castVote_of_error refused]
      apply Polled.decided same
      refine ⟨decided.reached.trans ?_, decided.members_eq,
        decided.lastEpochId_eq, decided.pushed, decided.accepted⟩
      rw [ballotsOf_concat]
      exact Poll.votesFor_le_append _

theorem run (polling : Polling reportChecksum river origin world epoch
      votes) :
    Polled reportChecksum river origin world epoch votes
      (castVotes reportChecksum river (origin, world) votes) := by
  induction votes using List.reverseRecOn with
  | nil =>
      exact .pending (Pending.start polling.recent polling.positions
        polling.variants)
  | append_singleton votes vote induction =>
      rw [castVotes_concat]
      exact polling.step (induction polling.of_append)

end Polling

section Orders

variable {assignment : Address → Option ConsensusLayerReport}
  {order : List Vote} {state : Oracle Variant × E}

/-- The votes of an assignment are a poll. -/
theorem Polling.of_assigned (injective : Function.Injective reportChecksum)
    (nodup : origin.members.Nodup) (small : origin.members.length ≤ 256)
    (recent : origin.lastEpochId ≤ epoch)
    (positions : origin.reportsPositions = 0)
    (variants : origin.reportsVariants = [])
    (assigned : ∀ member ∈ origin.members, ∀ report,
      assignment member = some report → report.epoch = epoch)
    (next : epoch + 1 < wordLimit)
    (valid : river.isValidEpoch world epoch = .ok true)
    (accepts : ∀ report,
      origin.quorum ≤ supporters origin.members assignment report →
      ∃ worldAfter, river.setConsensusLayerData world report =
        .ok worldAfter)
    (reordered : order.Perm (assignedVotes origin.members assignment)) :
    Polling reportChecksum river origin world epoch order := by
  refine ⟨recent, positions, variants, small, next, valid, ?_, ?_, ?_, ?_⟩
  · intro report reached
    rw [votesFor_assigned injective reordered] at reached
    exact accepts report reached
  · apply (reordered.map Prod.fst).nodup_iff.mpr
    rw [assignedVotes_senders]
    exact nodup.filter _
  · intro vote cast
    exact (mem_assignedVotes.mp (reordered.mem_iff.mp cast)).1
  · intro vote cast
    obtain ⟨known, found⟩ := mem_assignedVotes.mp (reordered.mem_iff.mp cast)
    exact assigned vote.1 known vote.2 found

/-- The report that was sent is the elected one. -/
theorem Polled.elected (injective : Function.Injective reportChecksum)
    (majority : origin.members.length < 2 * origin.quorum)
    (reordered : order.Perm (assignedVotes origin.members assignment))
    (polled : Polled reportChecksum river origin world epoch order state) :
    state.1.pushedReports = origin.pushedReports ++
        (elected origin.members assignment origin.quorum).toList ∧
      (elected origin.members assignment origin.quorum = none →
        state.2 = world) ∧
      ∀ report, elected origin.members assignment origin.quorum =
          some report →
        river.setConsensusLayerData world report = .ok state.2 := by
  cases polled with
  | pending pending =>
      have nobody : RiverProtocol.elected origin.members assignment
          origin.quorum = none := by
        rw [Option.eq_none_iff_forall_ne_some]
        intro report found
        have supported := (elected_eq_some majority).mp found
        rw [← votesFor_assigned injective reordered] at supported
        have quorum_eq := (startEpoch_frame pending.recent).2.2.trans
          pending.quorum_eq
        have short := pending.tallied.votes_lt (by omega)
          (reportChecksum report)
        omega
      rw [nobody]
      refine ⟨?_, fun _ => rfl, ?_⟩
      · rw [Option.toList_none, List.append_nil]
        exact pending.silent
      · intro report found
        contradiction
  | @decided report oracle worldAfter same decided =>
      have reached := decided.reached
      rw [votesFor_assigned injective reordered] at reached
      rw [(elected_eq_some majority).mpr reached]
      refine ⟨decided.pushed, ?_, ?_⟩
      · intro nobody
        contradiction
      · rintro _ ⟨⟩
        exact decided.accepted

/-- Before a report is sent every vote returns, and afterwards every vote for
the epoch reverts. -/
theorem Polling.replies (polling : Polling reportChecksum river origin world
      epoch order) {earlier later : List Vote}
    (split : order = earlier ++ later)
    (cast : state = castVotes reportChecksum river (origin, world) earlier) :
    (state.1.pushedReports = origin.pushedReports →
      ∀ vote rest, later = vote :: rest →
        ∃ next, state.1.reportConsensusLayerData reportChecksum river state.2
          vote.1 vote.2 = .ok next) ∧
    (state.1.pushedReports ≠ origin.pushedReports →
      ∀ sender ∈ origin.members, ∀ report : ConsensusLayerReport,
        report.epoch = epoch →
        state.1.reportConsensusLayerData reportChecksum river state.2 sender
          report = .error (.epochTooOld epoch (epoch + 1)) ∧
        castVote reportChecksum river state (sender, report) = state) := by
  subst split
  have polled := polling.of_append.run
  rw [← cast] at polled
  clear cast
  cases polled with
  | pending pending =>
      refine ⟨?_, fun sent => absurd pending.silent sent⟩
      rintro _ vote rest rfl
      rw [List.append_cons] at polling
      obtain ⟨after, worldAfter, returned, -⟩ :=
        polling.of_append.cast pending
      exact ⟨_, returned⟩
  | @decided winner oracle worldAfter same decided =>
      have sent := decided.pushed
      refine ⟨?_, ?_⟩
      · intro silent
        rw [silent] at sent
        simp at sent
      · intro _ sender known report current
        have refused := decided.refuses known (current.trans same.symm)
        rw [same] at refused
        exact ⟨refused, castVote_of_error refused⟩

end Orders

/-- The members of a cleared oracle vote for one epoch, in any order, and the
quorum is more than half of them.  River gets the one report that a quorum
supports, once, or none; once it has, the votes left revert.  River takes only
epochs that are over, so the next epoch is a word. -/
theorem votes_commute (injective : Function.Injective reportChecksum)
    {assignment : Address → Option ConsensusLayerReport}
    (nodup : oracle.members.Nodup) (small : oracle.members.length ≤ 256)
    (majority : oracle.members.length < 2 * oracle.quorum)
    (recent : oracle.lastEpochId ≤ epoch)
    (positions : oracle.reportsPositions = 0)
    (variants : oracle.reportsVariants = [])
    (assigned : ∀ member ∈ oracle.members, ∀ report,
      assignment member = some report → report.epoch = epoch)
    (next : epoch + 1 < wordLimit)
    (valid : river.isValidEpoch world epoch = .ok true)
    (accepts : ∀ report,
      oracle.quorum ≤ supporters oracle.members assignment report →
      ∃ worldAfter, river.setConsensusLayerData world report =
        .ok worldAfter) :
    (∀ report, elected oracle.members assignment oracle.quorum =
        some report ↔
      oracle.quorum ≤ supporters oracle.members assignment report) ∧
    ∀ order : List Vote,
      order.Perm (assignedVotes oracle.members assignment) →
      ∀ final, final = castVotes reportChecksum river (oracle, world) order →
        final.1.pushedReports = oracle.pushedReports ++
          (elected oracle.members assignment oracle.quorum).toList ∧
        (elected oracle.members assignment oracle.quorum = none →
          final.2 = world) ∧
        (∀ report, elected oracle.members assignment oracle.quorum =
            some report →
          river.setConsensusLayerData world report = .ok final.2) ∧
        ∀ earlier later state, order = earlier ++ later →
          state = castVotes reportChecksum river (oracle, world) earlier →
          (state.1.pushedReports = oracle.pushedReports →
            ∀ vote rest, later = vote :: rest →
              ∃ next, state.1.reportConsensusLayerData reportChecksum river
                state.2 vote.1 vote.2 = .ok next) ∧
          (state.1.pushedReports ≠ oracle.pushedReports →
            ∀ sender ∈ oracle.members, ∀ report : ConsensusLayerReport,
              report.epoch = epoch →
              state.1.reportConsensusLayerData reportChecksum river state.2
                sender report = .error (.epochTooOld epoch (epoch + 1)) ∧
              castVote reportChecksum river state (sender, report) =
                state) := by
  refine ⟨fun report => elected_eq_some majority, ?_⟩
  rintro order reordered final rfl
  have polling := Polling.of_assigned injective nodup small recent positions
    variants assigned next valid accepts reordered
  obtain ⟨pushed, silent, accepted⟩ :=
    polling.run.elected injective majority reordered
  refine ⟨pushed, silent, accepted, ?_⟩
  intro earlier later state split cast
  exact polling.replies split cast

section Sample

/-- An oracle with three members, and no votes. -/
def sampleOracle (quorum : Nat) : Oracle ConsensusLayerReport :=
  { fresh (.ofNat 10) with
    members := [.ofNat 1, .ofNat 2, .ofNat 3]
    quorum := quorum }

/-- The second member disagrees with the others. -/
def sampleAssignment (member : Address) : Option ConsensusLayerReport :=
  if member = .ofNat 2 then some { sampleReport with validatorsCount := 1 }
  else some sampleReport

theorem votes_commute_sample :
    (castVotes id acceptingRiver (sampleOracle 2, ())
      (assignedVotes (sampleOracle 2).members
        sampleAssignment).reverse).1.pushedReports = [sampleReport] := by
  have assigned : ∀ member ∈ (sampleOracle 2).members, ∀ report,
      sampleAssignment member = some report → report.epoch = 225 := by
    intro member _ report found
    unfold sampleAssignment at found
    split at found <;> cases found <;> rfl
  have nodup : (sampleOracle 2).members.Nodup := by decide
  have accepts : ∀ report, (sampleOracle 2).quorum ≤
      supporters (sampleOracle 2).members sampleAssignment report →
      ∃ worldAfter, acceptingRiver.setConsensusLayerData () report =
        .ok worldAfter := fun report _ => ⟨(), rfl⟩
  obtain ⟨elected, orders⟩ := votes_commute Function.injective_id nodup
    (by decide) (by decide) (Nat.zero_le 225) rfl rfl assigned (by decide)
    rfl accepts
  obtain ⟨pushed, -⟩ := orders _ (List.reverse_perm _) _ rfl
  rw [pushed, (elected sampleReport).mpr (by decide)]
  rfl

/-- With a smaller quorum the order decides. -/
example : let votes := (assignedVotes (sampleOracle 1).members
      sampleAssignment).tail
    (castVotes id acceptingRiver (sampleOracle 1, ()) votes).1.pushedReports ≠
      (castVotes id acceptingRiver (sampleOracle 1, ())
        votes.reverse).1.pushedReports := by
  decide

end Sample

end Oracle

end RiverProtocol
