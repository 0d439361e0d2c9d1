import RiverProtocol.Oracle.Status
import RiverProtocol.System.Books
import RiverProtocol.System.OracleReports

/-!
# A round of reporting

Enough members agree on the report of the latest epoch, and the others are
fewer than a quorum.  The others may vote for anything at any moment and pass
their seats on, and the system may move in between: no other report is sent
first, and until theirs is sent the agreeing members can vote and some of them
still have to.
-/

namespace RiverProtocol

open Checked Outcome

open Poll (seats votesFor)

theorem OracleMembers.mem_of_indexOf {members : List Address}
    {account : Address} {idx : Nat}
    (found : indexOf members account = some idx) :
    account ∈ members ∧ members.idxOf account = idx := by
  have known : account ∈ members := by
    by_contra unknown
    rw [indexOf_eq_none.mpr unknown] at found
    cases found
  rw [indexOf_of_mem known] at found
  exact ⟨known, Option.some.inj found⟩

namespace Oracle

variable {Variant : Type} {oracle after : Oracle Variant} {E : Type}

/-- The agreeing members have a bit each, and without them there is no
quorum. -/
structure Carried (agreeing members : List Address) (quorum : Nat) :
    Prop where
  nodup : agreeing.Nodup
  known : ∀ member ∈ agreeing, member ∈ members
  inside : ∀ member ∈ agreeing, members.idxOf member < 256
  enough : quorum ≤ agreeing.length
  few : members.length < agreeing.length + quorum

/-- The members that agree on a report, and the worlds in which River takes
it: the ones it may pass through, and its answers there. -/
structure Round (E : Type) where
  report : ConsensusLayerReport
  agreeing : List Address
  ready : E → Prop
  moves : E → E → Prop
  answers : OracleCalls E → Prop
  next : report.epoch + 1 < wordLimit
  kept : ∀ world after, ready world → moves world after → ready after
  valid : ∀ world river, ready world → answers river →
    river.isValidEpoch world report.epoch = .ok true
  latest : ∀ world river epoch, ready world → answers river →
    river.isValidEpoch world epoch = .ok true → epoch ≤ report.epoch
  accepts : ∀ world river, ready world → answers river →
    ∃ after, river.setConsensusLayerData world report = .ok after

namespace Round

/-- The world moves, the oracle is managed, or a member votes.  The agreeing
members keep what carries their report, and vote for it only. -/
inductive Step [DecidableEq Variant]
    (reportChecksum : ConsensusLayerReport → Variant) (round : Round E) :
    Oracle Variant × E → Oracle Variant × E → Prop where
  | world {oracle : Oracle Variant} {world after : E} :
      round.moves world after →
      Step reportChecksum round (oracle, world) (oracle, after)
  | manage {oracle after : Oracle Variant} {world : E} :
      Manage oracle after →
      Carried round.agreeing after.members after.quorum →
      Step reportChecksum round (oracle, world) (after, world)
  | vote {oracle after : Oracle Variant} {river : OracleCalls E}
      {world worldAfter : E} {sender : Address}
      {report : ConsensusLayerReport} :
      round.answers river →
      (sender ∈ round.agreeing → report = round.report) →
      oracle.reportConsensusLayerData reportChecksum river world sender
        report = .ok (after, worldAfter) →
      Step reportChecksum round (oracle, world) (after, worldAfter)

end Round

/-- The seats of these members. -/
def seatsOf (agreeing members : List Address) : Finset Nat :=
  (agreeing.map fun member => members.idxOf member).toFinset

section Members

variable {agreeing members : List Address} {quorum : Nat}

theorem mem_seatsOf {seat : Nat} : seat ∈ seatsOf agreeing members ↔
    ∃ member ∈ agreeing, members.idxOf member = seat := by
  rw [seatsOf, List.mem_toFinset, List.mem_map]

theorem Carried.card_seatsOf (carried : Carried agreeing members quorum) :
    (seatsOf agreeing members).card = agreeing.length := by
  have distinct :
      (agreeing.map fun member => members.idxOf member).Nodup := by
    refine carried.nodup.map_on ?_
    intro member known other _ same
    exact (List.idxOf_inj (carried.known member known)).mp same
  rw [seatsOf, List.toFinset_card_of_nodup distinct, List.length_map]

theorem Carried.members_ne_nil (carried : Carried agreeing members quorum) :
    members ≠ [] := by
  obtain ⟨-, known, -, enough, few⟩ := carried
  rintro rfl
  have nobody : agreeing = [] :=
    List.eq_nil_iff_forall_not_mem.mpr fun member agrees =>
      List.not_mem_nil (known member agrees)
  rw [nobody] at enough few
  exact absurd (few.trans_le (Nat.add_le_add_left enough 0))
    (Nat.lt_irrefl 0)

theorem idxOf_set {account newAddress : Address} {idx : Nat}
    (nodup : members.Nodup) (unknown : newAddress ∉ members)
    (known : account ∈ members) (kept : account ∈ members.set idx newAddress) :
    (members.set idx newAddress).idxOf account = members.idxOf account := by
  obtain ⟨position, inside, found⟩ := List.mem_iff_getElem.mp kept
  have other : position ≠ idx := by
    rintro rfl
    rw [List.getElem_set_self] at found
    exact unknown (found ▸ known)
  rw [List.getElem_set_ne (Ne.symm other)] at found
  have seat := nodup.idxOf_getElem position
    (inside.trans_eq (List.length_set ..))
  have seatAfter := (nodup.set unknown).idxOf_getElem position inside
  rw [List.getElem_set_ne (Ne.symm other)] at seatAfter
  rw [← found, seat, seatAfter]

/-- The others may pass their seats on. -/
theorem Carried.passed {idx : Nat} {member newAddress : Address}
    (carried : Carried agreeing members quorum) (nodup : members.Nodup)
    (other : member ∉ agreeing)
    (found : OracleMembers.indexOf members member = some idx)
    (unknown : newAddress ∉ members) :
    Carried agreeing (members.set idx newAddress) quorum := by
  have kept : ∀ account ∈ agreeing,
      account ∈ members.set idx newAddress := by
    intro account agrees
    have known := carried.known account agrees
    obtain ⟨position, inside, same⟩ := List.mem_iff_getElem.mp known
    have apart : idx ≠ position := by
      rintro rfl
      have seat := nodup.idxOf_getElem idx inside
      rw [same] at seat
      have named : account = member := (List.idxOf_inj known).mp
        (seat.trans (OracleMembers.mem_of_indexOf found).2.symm)
      exact other (named ▸ agrees)
    refine List.mem_iff_getElem.mpr ⟨position,
      inside.trans_eq (List.length_set ..).symm, ?_⟩
    rw [List.getElem_set_ne apart]
    exact same
  refine ⟨carried.nodup, kept, ?_, carried.enough, ?_⟩
  · intro account agrees
    rw [idxOf_set nodup unknown (carried.known account agrees)
      (kept account agrees)]
    exact carried.inside account agrees
  · rw [List.length_set]
    exact carried.few

theorem seatsOf_set {idx : Nat} {newAddress : Address}
    (nodup : members.Nodup) (unknown : newAddress ∉ members)
    (known : ∀ member ∈ agreeing, member ∈ members)
    (kept : ∀ member ∈ agreeing, member ∈ members.set idx newAddress) :
    seatsOf agreeing (members.set idx newAddress) =
      seatsOf agreeing members := by
  unfold seatsOf
  rw [List.map_congr_left]
  intro member agrees
  exact idxOf_set nodup unknown (known member agrees) (kept member agrees)

end Members

theorem startEpoch_ballots (oracle : Oracle Variant) (epoch : Nat) :
    (oracle.startEpoch epoch).board.ballots = [] ∨
      (oracle.startEpoch epoch).board.ballots = oracle.board.ballots := by
  unfold startEpoch
  split
  · left
    rw [board_emit]
    exact congrArg Board.ballots (Board.replay_append _ _)
  · exact .inr rfl

/-- The agreeing members voted for the report only. -/
def Faithful (round : Round E) (oracle : Oracle Variant) : Prop :=
  ∀ ballot ∈ oracle.board.ballots,
    ballot.seat ∈ seatsOf round.agreeing oracle.members →
      ballot.choice = round.report

theorem Faithful.startEpoch {round : Round E} {epoch : Nat}
    (faithful : Faithful round oracle) (recent : oracle.lastEpochId ≤ epoch) :
    Faithful round (oracle.startEpoch epoch) := by
  obtain ⟨-, members, -⟩ := startEpoch_frame recent
  intro ballot cast
  rw [members]
  rcases oracle.startEpoch_ballots epoch with none | same
  · rw [none] at cast
    exact absurd cast List.not_mem_nil
  · rw [same] at cast
    exact faithful ballot cast

/-- Managing the oracle drops the ballots, or keeps them and renames one seat
at most. -/
theorem Manage.ballots (seated : Seated oracle)
    (managed : Manage oracle after) :
    after.board.ballots = [] ∨
      after.board.ballots = oracle.board.ballots ∧
        (after.members = oracle.members ∨
          ∃ idx newAddress, newAddress ∉ oracle.members ∧
            after.members = oracle.members.set idx newAddress) := by
  have restarted : ∀ (members : List Address) (newQuorum : Nat),
      ((oracle.withMembers members).restarted newQuorum).board.ballots =
        [] := by
    intro members newQuorum
    have told : ((oracle.withMembers members).restarted newQuorum).board =
        _ := board_restarted seated.quorum_eq newQuorum
    rw [told]
  cases managed with
  | addMember returned =>
      obtain ⟨-, -, -, rfl⟩ := addMember_ok returned
      left
      rw [board_emit]
      exact restarted _ _
  | removeMember returned =>
      obtain ⟨idx, -, -, rfl⟩ := removeMember_ok returned
      left
      rw [board_emit]
      simp only [Board.after]
      split <;> exact restarted _ _
  | setMember returned =>
      obtain ⟨-, unknown, idx, -, rfl⟩ := setMember_ok returned
      exact .inr ⟨Marked.ballots_replaced _ _ _, .inr ⟨idx, _, unknown, rfl⟩⟩
  | setQuorum returned =>
      obtain ⟨-, rfl⟩ := setQuorum_ok returned
      exact .inl (restarted oracle.members _)
  | proposeAdmin returned => exact .inr ⟨rfl, .inl rfl⟩
  | acceptAdmin returned => exact .inr ⟨rfl, .inl rfl⟩

theorem Manage.lastEpochId (managed : Manage oracle after) :
    after.lastEpochId = oracle.lastEpochId := by
  cases managed with
  | addMember returned =>
      obtain ⟨-, -, -, rfl⟩ := addMember_ok returned
      rfl
  | removeMember returned =>
      obtain ⟨idx, -, -, rfl⟩ := removeMember_ok returned
      rfl
  | setMember returned =>
      obtain ⟨-, -, idx, -, rfl⟩ := setMember_ok returned
      rfl
  | setQuorum returned =>
      obtain ⟨-, rfl⟩ := setQuorum_ok returned
      rfl
  | proposeAdmin returned => rfl
  | acceptAdmin returned => rfl

theorem Faithful.manage {round : Round E} (faithful : Faithful round oracle)
    (seated : Seated oracle)
    (known : ∀ member ∈ round.agreeing, member ∈ oracle.members)
    (kept : ∀ member ∈ round.agreeing, member ∈ after.members)
    (managed : Manage oracle after) : Faithful round after := by
  intro ballot cast
  rcases managed.ballots seated with none | ⟨same, members⟩
  · rw [none] at cast
    exact absurd cast List.not_mem_nil
  · rw [same] at cast
    rcases members with members | ⟨idx, newAddress, unknown, members⟩
    · rw [members]
      exact faithful ballot cast
    · rw [members] at kept ⊢
      rw [seatsOf_set seated.nodup unknown known kept]
      exact faithful ballot cast

section Votes

variable [DecidableEq Variant]
  {reportChecksum : ConsensusLayerReport → Variant} {round : Round E}
  {origin : Oracle Variant} {world worldAfter : E} {river : OracleCalls E}
  {sender : Address} {report : ConsensusLayerReport}

/-- The oracle while the report has not been sent. -/
structure Open (reportChecksum : ConsensusLayerReport → Variant)
    (round : Round E) (origin oracle : Oracle Variant) : Prop where
  sound : Sound reportChecksum oracle
  carried : Carried round.agreeing oracle.members oracle.quorum
  recent : oracle.lastEpochId ≤ round.report.epoch
  silent : oracle.pushedReports = origin.pushedReports
  faithful : Faithful round oracle

/-- The ballots of the others do not make a quorum. -/
theorem Faithful.other_short (faithful : Faithful round oracle)
    (registered : Registered oracle.board.ballots oracle)
    (carried : Carried round.agreeing oracle.members oracle.quorum)
    (injective : Function.Injective reportChecksum)
    (other : report ≠ round.report) :
    votesFor reportChecksum oracle.board.ballots (reportChecksum report) <
      oracle.quorum := by
  have apart : votesFor reportChecksum oracle.board.ballots
      (reportChecksum report) +
        (seatsOf round.agreeing oracle.members).card ≤
          oracle.members.length := by
    refine Poll.votesFor_add_card_le registered.distinct registered.seated
      ?_ ?_
    · intro seat agrees
      obtain ⟨member, agreeing, rfl⟩ := mem_seatsOf.mp agrees
      exact List.idxOf_lt_length_of_mem (carried.known member agreeing)
    · intro ballot cast keyed agrees
      exact other ((injective keyed).symm.trans (faithful ballot cast agrees))
  have few := carried.few
  rw [carried.card_seatsOf] at apart
  omega

namespace Open

theorem start (sound : Sound reportChecksum oracle)
    (carried : Carried round.agreeing oracle.members oracle.quorum)
    (idle : oracle.reportsPositions = 0)
    (recent : oracle.lastEpochId ≤ round.report.epoch) :
    Open reportChecksum round oracle oracle := by
  refine ⟨sound, carried, recent, rfl, ?_⟩
  have positions := sound.registered.positions
  rw [idle] at positions
  have none : (seats oracle.board.ballots).toFinset = ∅ :=
    positions.symm.trans Bitmap.members_zero
  intro ballot cast
  have seat : ballot.seat ∈ (seats oracle.board.ballots).toFinset :=
    List.mem_toFinset.mpr (List.mem_map_of_mem cast)
  rw [none] at seat
  exact absurd seat (Finset.notMem_empty _)

theorem manage (opened : Open reportChecksum round origin oracle)
    (injective : Function.Injective reportChecksum)
    (managed : Manage oracle after)
    (carried : Carried round.agreeing after.members after.quorum) :
    Open reportChecksum round origin after where
  sound := (opened.sound.run injective (.single (.manage managed))).1
  carried := carried
  recent := managed.lastEpochId.trans_le opened.recent
  silent := managed.pushedReports.trans opened.silent
  faithful := opened.faithful.manage opened.sound.seated opened.carried.known
    carried.known managed

/-- A vote leaves the report unsent, or sends it. -/
theorem vote (opened : Open reportChecksum round origin oracle)
    (injective : Function.Injective reportChecksum)
    (ready : round.ready world) (answers : round.answers river)
    (honest : sender ∈ round.agreeing → report = round.report)
    (returned : oracle.reportConsensusLayerData reportChecksum river world
      sender report = .ok (after, worldAfter)) :
    (worldAfter = world ∧ Open reportChecksum round origin after) ∨
      after.pushedReports = origin.pushedReports ++ [round.report] := by
  obtain ⟨memberIndex, found, recent, valid, voting⟩ :=
    reportConsensusLayerData_eq_ok.mp returned
  have current := round.latest world river _ ready answers valid
  obtain ⟨epoch, members, quorum⟩ := startEpoch_frame recent
  have started := opened.sound.startEpoch recent
  have foundStarted : OracleMembers.indexOf
      (oracle.startEpoch report.epoch).members sender = some memberIndex := by
    rw [members]
    exact found
  obtain ⟨inside, fresh, votes, looked, outcome⟩ := vote_ok voting
  have told : ((oracle.startEpoch report.epoch).voted sender memberIndex
      (reportChecksum report) report (votes + 1)).board = _ :=
    board_voted started.seated foundStarted
  have marked : Marked ((oracle.startEpoch report.epoch).voted sender
      memberIndex (reportChecksum report) report (votes + 1)) :=
    started.marked.voted foundStarted epoch.symm inside fresh
  have faithful : Faithful round ((oracle.startEpoch report.epoch).voted
      sender memberIndex (reportChecksum report) report (votes + 1)) := by
    intro ballot cast agrees
    rw [told] at cast
    rcases List.mem_append.mp cast with old | new
    · exact opened.faithful.startEpoch recent ballot old agrees
    · rw [List.mem_singleton.mp new] at agrees ⊢
      obtain ⟨member, agreeing, seat⟩ := mem_seatsOf.mp agrees
      have known : member ∈ (oracle.startEpoch report.epoch).members := by
        rw [members]
        exact opened.carried.known member agreeing
      have same : member = sender := (List.idxOf_inj known).mp
        (seat.trans (OracleMembers.mem_of_indexOf foundStarted).2.symm)
      exact honest (same ▸ agreeing)
  have votes_eq := looked.trans
    (started.tallied.votes_eq (reportChecksum report))
  have carried := opened.carried
  rw [← members, ← quorum] at carried
  have pushedSoFar : ((oracle.startEpoch report.epoch).voted sender
      memberIndex (reportChecksum report) report (votes + 1)).pushedReports =
      origin.pushedReports :=
    (pushedReports_voted.trans (startEpoch_pushedReports _)).trans
      opened.silent
  cases outcome with
  | decided reached answered =>
      right
      rw [pushedReports_decided, pushedSoFar]
      by_contra other
      have different : report ≠ round.report :=
        fun same => other (by rw [same])
      have short := faithful.other_short marked.registered carried injective
        different
      rw [told, Poll.votesFor_concat, if_pos rfl, ← votes_eq] at short
      exact absurd reached (Nat.not_le_of_lt short)
  | counted short counting =>
      obtain ⟨membersAfter, quorumAfter, epochAfter, effectsAfter⟩ :=
        counting.frame
      refine .inl ⟨rfl, ?_⟩
      have board : after.board = _ := congrArg Board.replay effectsAfter
      refine ⟨(opened.sound.reportConsensusLayerData injective returned).1,
        ?_, ?_, ?_, ?_⟩
      · rw [membersAfter, quorumAfter]
        exact carried
      · rw [epochAfter]
        exact epoch.trans_le current
      · rw [pushedReports, effectsAfter]
        exact pushedSoFar
      · intro ballot cast agrees
        rw [board] at cast
        rw [membersAfter] at agrees
        exact faithful ballot cast agrees

/-- An agreeing member that has not voted for the epoch can vote. -/
theorem returns (opened : Open reportChecksum round origin oracle)
    (ready : round.ready world) (answers : round.answers river)
    (agrees : sender ∈ round.agreeing)
    (fresh : ¬ (oracle.startEpoch round.report.epoch).HasVoted sender) :
    ∃ result, oracle.reportConsensusLayerData reportChecksum river world
      sender round.report = .ok result := by
  obtain ⟨-, members, -⟩ := startEpoch_frame opened.recent
  have started := opened.sound.startEpoch opened.recent
  have found :=
    OracleMembers.indexOf_of_mem (opened.carried.known sender agrees)
  have inside := opened.carried.inside sender agrees
  have free : oracle.members.idxOf sender ∉
      Bitmap.members (oracle.startEpoch
        round.report.epoch).reportsPositions := by
    rw [started.registered.positions, List.mem_toFinset]
    intro cast
    refine fresh ⟨_, ?_, cast⟩
    rw [members]
    exact found
  have few : votesFor reportChecksum (oracle.startEpoch
      round.report.epoch).board.ballots (reportChecksum round.report) ≤
      256 := by
    refine Poll.votesFor_le_length.trans ?_
    rw [← started.registered.card_positions]
    exact Bitmap.card_members_le _
  have returns : ∃ result, Oracle.vote reportChecksum river world
      (oracle.startEpoch round.report.epoch) sender
      (oracle.members.idxOf sender) round.report = .ok result :=
    vote_returns inside free (started.tallied.votes_eq _)
      ((Nat.succ_le_succ few).trans_lt (by decide)) round.next
      fun _ => round.accepts world river ready answers
  obtain ⟨⟨after, worldAfter⟩, voting⟩ := returns
  exact ⟨_, reportConsensusLayerData_eq_ok.mpr ⟨_, found, opened.recent,
    round.valid world river ready answers, voting⟩⟩

/-- Some agreeing member has not voted for the epoch. -/
theorem waits (opened : Open reportChecksum round origin oracle) :
    ∃ member ∈ round.agreeing,
      ¬ (oracle.startEpoch round.report.epoch).HasVoted member := by
  obtain ⟨-, members, quorum⟩ := startEpoch_frame opened.recent
  have started := opened.sound.startEpoch opened.recent
  have faithful := opened.faithful.startEpoch opened.recent
  have carried := opened.carried
  rw [← members, ← quorum] at carried
  by_contra everyone
  simp only [not_exists, not_and, not_not] at everyone
  have agreed : (seatsOf round.agreeing (oracle.startEpoch
      round.report.epoch).members).card ≤ votesFor reportChecksum
        (oracle.startEpoch round.report.epoch).board.ballots
        (reportChecksum round.report) := by
    refine Poll.le_votesFor fun seat agrees => ?_
    obtain ⟨member, agreeing, rfl⟩ := mem_seatsOf.mp agrees
    obtain ⟨seat, found, cast⟩ := everyone member agreeing
    obtain ⟨-, rfl⟩ := OracleMembers.mem_of_indexOf found
    obtain ⟨ballot, listed, same⟩ := List.mem_map.mp cast
    refine ⟨ballot, listed, same, congrArg reportChecksum ?_⟩
    exact faithful ballot listed (same ▸ agrees)
  have positive : 0 < (oracle.startEpoch round.report.epoch).quorum :=
    started.seated.fits.1 carried.members_ne_nil
  have short := started.tallied.votes_lt positive
    (reportChecksum round.report)
  rw [carried.card_seatsOf] at agreed
  exact absurd (carried.enough.trans agreed) (Nat.not_le_of_lt short)

end Open

/-- The report was sent, and before any other. -/
def SentFirst (round : Round E) (origin oracle : Oracle Variant) : Prop :=
  ∃ later, oracle.pushedReports =
    origin.pushedReports ++ round.report :: later

/-- Every state of a round is either open or comes after the report. -/
theorem Round.run_open (injective : Function.Injective reportChecksum)
    (opened : Open reportChecksum round origin origin)
    (ready : round.ready world) {state : Oracle Variant × E}
    (run : Relation.ReflTransGen (Round.Step reportChecksum round)
      (origin, world) state) :
    SentFirst round origin state.1 ∨
      (round.ready state.2 ∧
        Open reportChecksum round origin state.1) := by
  induction run with
  | refl => exact .inr ⟨ready, opened⟩
  | tail _ step induction =>
      rcases induction with ⟨later, sent⟩ | ⟨ready, opened⟩
      · left
        cases step with
        | world moved => exact ⟨later, sent⟩
        | manage managed carried =>
            exact ⟨later, managed.pushedReports.trans sent⟩
        | @vote _ _ _ _ _ _ report answers honest returned =>
            rcases reportConsensusLayerData_pushed returned with
              ⟨-, same⟩ | ⟨-, more⟩
            · exact ⟨later, same.trans sent⟩
            · refine ⟨later ++ [report], more.trans ?_⟩
              rw [sent, List.append_assoc, List.cons_append]
      · cases step with
        | world moved => exact .inr ⟨round.kept _ _ ready moved, opened⟩
        | manage managed carried =>
            exact .inr ⟨ready, opened.manage injective managed carried⟩
        | vote answers honest returned =>
            rcases opened.vote injective ready answers honest returned
              with ⟨rfl, still⟩ | sent
            · exact .inr ⟨ready, still⟩
            · exact .inl ⟨[], sent⟩

end Votes

end Oracle

theorem Oracle.silent_world {Variant E : Type} [DecidableEq Variant]
    {reportChecksum : ConsensusLayerReport → Variant}
    {oracle after : Oracle Variant} {river : OracleCalls E}
    {world worldAfter : E} {sender : Address} {report : ConsensusLayerReport}
    (returned : oracle.reportConsensusLayerData reportChecksum river world
      sender report = .ok (after, worldAfter))
    (before : oracle.pushedReports = []) (silent : after.pushedReports = []) :
    worldAfter = world := by
  rcases reportConsensusLayerData_pushed returned with ⟨same, -⟩ | ⟨-, sent⟩
  · exact same
  · rw [before, silent] at sent
    cases sent

namespace System

/-- The members that agree on a report, and when votes reach River: at these
times, with these funds to pull from. -/
structure ReportingWindow where
  report : ConsensusLayerReport
  agreeing : List Address
  moments : ExternalFunds → Nat → Prop
  next : report.epoch + 1 < wordLimit

namespace ReportingWindow

variable (window : ReportingWindow) (deployment : Deployment)
  (oracleAddress : Address)

/-- At these moments the epoch of the report is the last valid one, and River
would take the report. -/
structure Taken (system : System) : Prop where
  valid : ∀ funds timestamp, window.moments funds timestamp →
    system.river.isValidEpoch timestamp window.report.epoch = .ok true
  latest : ∀ funds timestamp epoch, window.moments funds timestamp →
    system.river.isValidEpoch timestamp epoch = .ok true →
    epoch ≤ window.report.epoch
  accepted : ∀ funds timestamp, window.moments funds timestamp →
    ∃ after, (oracleCalls deployment oracleAddress funds
      timestamp).setConsensusLayerData system window.report = .ok after

/-- In between, operations may do anything after which River still takes the
report. -/
def round : Oracle.Round System where
  report := window.report
  agreeing := window.agreeing
  ready system := window.Taken deployment oracleAddress system
  moves system after := Operation deployment system after ∧
    window.Taken deployment oracleAddress after
  answers river := ∃ funds timestamp, window.moments funds timestamp ∧
    river = oracleCalls deployment oracleAddress funds timestamp
  next := window.next
  kept _ _ _ moved := moved.2
  valid := by
    rintro system river taken ⟨funds, timestamp, within, rfl⟩
    exact taken.valid funds timestamp within
  latest := by
    rintro system river epoch taken ⟨funds, timestamp, within, rfl⟩ valid
    exact taken.latest funds timestamp epoch within valid
  accepts := by
    rintro system river taken ⟨funds, timestamp, within, rfl⟩
    exact taken.accepted funds timestamp within

end ReportingWindow

variable {Variant : Type} [DecidableEq Variant]
  {reportChecksum : ConsensusLayerReport → Variant}
  {deployment : Deployment} {system after : System}

theorem oracle_of_reported {oracleAddress : Address}
    {before reached : Oracle Variant × System}
    (run : Relation.ReflTransGen
      (ReportedStep reportChecksum deployment oracleAddress) before
      reached) :
    Relation.ReflTransGen (Oracle.Step reportChecksum) before.1 reached.1 := by
  induction run with
  | refl => exact .refl
  | tail _ step induction => exact induction.trans step.oracle_steps

theorem reported_of_round {oracleAddress : Address} {window : ReportingWindow}
    {before reached : Oracle Variant × System}
    (run : Relation.ReflTransGen (Oracle.Round.Step reportChecksum
      (window.round deployment oracleAddress)) before reached) :
    Relation.ReflTransGen
      (ReportedStep reportChecksum deployment oracleAddress) before
      reached := by
  refine Relation.ReflTransGen.mono (fun _ _ step => ?_) _ _ run
  cases step with
  | world moved => exact .operation moved.1
  | manage managed _ => exact .manage managed
  | vote answers honest returned =>
      obtain ⟨funds, timestamp, -, rfl⟩ := answers
      exact .report returned

section Sample

/-- Three members with a quorum of two. -/
def sampleMembers : Except Error (Oracle ConsensusLayerReport) := do
  let alone ← (Oracle.fresh (.ofNat 10)).addMember (.ofNat 10) (.ofNat 1) 1
  let both ← alone.addMember (.ofNat 10) (.ofNat 2) 2
  both.addMember (.ofNat 10) (.ofNat 3) 2

theorem sampleMembers_reached {oracle : Oracle ConsensusLayerReport}
    (returned : sampleMembers = .ok oracle) :
    Relation.ReflTransGen (ReportedStep id sample (.ofNat 11))
      (Oracle.fresh (.ofNat 10), fresh sample) (oracle, fresh sample) := by
  simp only [sampleMembers, bind_eq_ok] at returned
  obtain ⟨alone, first, both, second, third⟩ := returned
  exact ((Relation.ReflTransGen.single
    (.manage (.addMember first))).tail (.manage (.addMember second))).tail
      (.manage (.addMember third))

/-- At second 300000 epoch 675 is the last one. -/
theorem sample_latest {river : River} {epoch : Nat}
    (spec : river.config.clSpec = sampleConfig.clSpec)
    (valid : river.isValidEpoch 300000 epoch = .ok true) : epoch ≤ 675 := by
  simp only [River.isValidEpoch, spec, River.currentEpoch, sampleConfig,
    bind_eq_ok, usub_eq_ok, udiv_eq_ok, uadd_eq_ok] at valid
  obtain ⟨current, ⟨elapsed, ⟨-, rfl⟩, slot, ⟨-, rfl⟩, -, rfl⟩, final,
    ⟨-, rfl⟩, valid⟩ := valid
  split at valid
  · rename_i checked
    simp only [bind_eq_ok, umod_eq_ok, pure_eq_ok, decide_eq_true_eq] at valid
    obtain ⟨position, ⟨-, rfl⟩, whole⟩ := valid
    omega
  · cases valid

/-- Two members agree on the quiet report of epoch 675. -/
def sampleWindow : ReportingWindow where
  report := quietReport 675 false
  agreeing := [.ofNat 1, .ofNat 2]
  moments funds timestamp := funds = feesUpTo 0 ∧ timestamp = 300000
  next := by decide

end Sample

end System

end RiverProtocol
