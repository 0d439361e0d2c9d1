import RiverProtocol.Oracle.Invariants

/-!
# Agreement of the oracle members

A report that is sent to River has the votes of a quorum of distinct seats,
cast for exactly this report since the last clear.
-/

namespace RiverProtocol

open Checked Outcome Lists

open Poll (Ballot seats seatsFor votesFor)

namespace Board

/-- A quorum of distinct seats voted for exactly this report, and no ballot is
for another epoch. -/
structure Agreed (board : Board) (report : ConsensusLayerReport) : Prop where
  quorum_pos : 1 ≤ board.quorum
  distinct : (seats board.ballots).Nodup
  seated : ∀ ballot ∈ board.ballots, ballot.seat < board.members.length
  same_epoch : ∀ ballot ∈ board.ballots, ballot.choice.epoch = report.epoch
  quorum_le : board.quorum ≤ (seatsFor board.ballots report).card

end Board

namespace OracleEffect

variable {Variant : Type}

/-- The report an effect sends to River. -/
def pushed : OracleEffect Variant → Option ConsensusLayerReport
  | .setConsensusLayerData report => some report
  | _ => none

/-- A report is sent right after a clear of an agreeing poll. -/
def Justified (before : List (OracleEffect Variant))
    (effect : OracleEffect Variant) : Prop :=
  ∀ report, effect.pushed = some report →
    ∃ prior, before = prior ++ [.clearedReporting] ∧
      (Board.replay prior).Agreed report

theorem justified_of_silent {effect : OracleEffect Variant}
    (silent : effect.pushed = none) (before : List (OracleEffect Variant)) :
    Justified before effect := by
  intro report pushed
  rw [silent] at pushed
  contradiction

end OracleEffect

namespace Oracle

variable {Variant : Type} {oracle after : Oracle Variant}

/-- The reports sent to River, in order. -/
def pushedReports (oracle : Oracle Variant) : List ConsensusLayerReport :=
  oracle.effects.filterMap OracleEffect.pushed

theorem pushedReports_append {later : List (OracleEffect Variant)}
    (effects : after.effects = oracle.effects ++ later)
    (silent : ∀ effect ∈ later, effect.pushed = none) :
    after.pushedReports = oracle.pushedReports := by
  rw [pushedReports, effects, List.filterMap_append,
    List.filterMap_eq_nil_iff.mpr silent, List.append_nil]
  rfl

theorem silent_emit {effect : OracleEffect Variant}
    (silent : effect.pushed = none) :
    ∀ other ∈ [effect], other.pushed = none := by
  intro other member
  rw [List.mem_singleton.mp member]
  exact silent

theorem silent_restarted (newQuorum : Nat) :
    ∀ effect ∈ (.clearedReporting :: if newQuorum ≠ oracle.quorum then
        [.setQuorum newQuorum] else [] : List (OracleEffect Variant)),
      effect.pushed = none := by
  intro effect member
  rcases List.mem_cons.mp member with rfl | member
  · rfl
  · split at member
    · rw [List.mem_singleton.mp member]
      rfl
    · exact absurd member List.not_mem_nil

theorem pushedReports_emit {effect : OracleEffect Variant}
    (silent : effect.pushed = none) :
    (oracle.emit effect).pushedReports = oracle.pushedReports :=
  pushedReports_append rfl (silent_emit silent)

theorem pushedReports_restarted (newQuorum : Nat) :
    (oracle.restarted newQuorum).pushedReports = oracle.pushedReports :=
  pushedReports_append rfl (silent_restarted newQuorum)

theorem pushedReports_voted {sender : Address} {memberIndex voteCount : Nat}
    {variant : Variant} {report : ConsensusLayerReport} :
    (oracle.voted sender memberIndex variant report voteCount).pushedReports =
      oracle.pushedReports :=
  pushedReports_append rfl (silent_emit rfl)

theorem pushedReports_decided (report : ConsensusLayerReport) :
    (oracle.decided report).pushedReports =
      oracle.pushedReports ++ [report] := by
  simp only [pushedReports, decided, List.filterMap_append, List.append_assoc]
  rfl

theorem startEpoch_pushedReports (epoch : Nat) :
    (oracle.startEpoch epoch).pushedReports = oracle.pushedReports := by
  unfold startEpoch
  split
  · rename_i later
    refine (pushedReports_emit rfl).trans ?_
    exact pushedReports_append rfl (silent_emit rfl)
  · rfl

/-- What the effects of the past satisfy. -/
structure Historic (oracle : Oracle Variant) : Prop where
  justified : EachAfter OracleEffect.Justified oracle.effects
  increasing : (oracle.pushedReports.map (·.epoch)).Pairwise (· < ·)
  below : ∀ report ∈ oracle.pushedReports, report.epoch < oracle.lastEpochId

namespace Historic

theorem fresh (admin : Address) :
    Historic (Oracle.fresh admin : Oracle Variant) := by
  have nothing : EachAfter OracleEffect.Justified
      ([] : List (OracleEffect Variant)) := eachAfter_nil
  refine ⟨nothing.append ?_, List.Pairwise.nil, ?_⟩
  · intro effect member before
    apply OracleEffect.justified_of_silent
    simp only [List.mem_cons, List.not_mem_nil, or_false] at member
    rcases member with rfl | rfl <;> rfl
  · intro report member
    exact absurd member List.not_mem_nil

/-- Effects that send no report. -/
theorem of_silent {later : List (OracleEffect Variant)}
    (history : Historic oracle)
    (effects : after.effects = oracle.effects ++ later)
    (silent : ∀ effect ∈ later, effect.pushed = none)
    (grows : oracle.lastEpochId ≤ after.lastEpochId) : Historic after := by
  have same := pushedReports_append effects silent
  refine ⟨?_, ?_, ?_⟩
  · rw [effects]
    apply history.justified.append
    intro effect member before
    exact OracleEffect.justified_of_silent (silent effect member) before
  · rw [same]
    exact history.increasing
  · intro report member
    rw [same] at member
    exact (history.below report member).trans_le grows

theorem emit {effect : OracleEffect Variant} (history : Historic oracle)
    (silent : effect.pushed = none) : Historic (oracle.emit effect) := by
  have grows : oracle.lastEpochId ≤ (oracle.emit effect).lastEpochId :=
    Nat.le_refl _
  exact history.of_silent rfl (silent_emit silent) grows

theorem restarted (history : Historic oracle) (newQuorum : Nat) :
    Historic (oracle.restarted newQuorum) := by
  have grows : oracle.lastEpochId ≤ (oracle.restarted newQuorum).lastEpochId :=
    Nat.le_refl _
  exact history.of_silent rfl (silent_restarted newQuorum) grows

theorem decided {report : ConsensusLayerReport} (history : Historic oracle)
    (agreed : oracle.board.Agreed report)
    (recent : oracle.lastEpochId ≤ report.epoch) :
    Historic (oracle.decided report) := by
  have pushed := oracle.pushedReports_decided report
  refine ⟨?_, ?_, ?_⟩
  · have cleared : EachAfter OracleEffect.Justified
        (oracle.effects ++ [.clearedReporting]) :=
      history.justified.concat (OracleEffect.justified_of_silent rfl _)
    have sent : EachAfter OracleEffect.Justified
        (oracle.effects ++ [.clearedReporting] ++
          [.setConsensusLayerData report]) := by
      apply cleared.concat
      intro other same
      cases same
      exact ⟨oracle.effects, rfl, agreed⟩
    exact sent.concat (OracleEffect.justified_of_silent rfl _)
  · rw [pushed, List.map_append, List.pairwise_append]
    refine ⟨history.increasing, List.pairwise_singleton _ _, ?_⟩
    intro epoch member last lastMember
    obtain ⟨earlier, earlierMember, rfl⟩ := List.mem_map.mp member
    rw [List.map_singleton, List.mem_singleton] at lastMember
    rw [lastMember]
    exact (history.below earlier earlierMember).trans_le recent
  · rw [pushed]
    apply forall_mem_concat
    · intro other member
      exact ((history.below other member).trans_le recent).trans
        (Nat.lt_succ_self _)
    · exact Nat.lt_succ_self _

end Historic

section Sound

variable [DecidableEq Variant]
  {reportChecksum : ConsensusLayerReport → Variant}

structure Sound (reportChecksum : ConsensusLayerReport → Variant)
    (oracle : Oracle Variant) : Prop where
  seated : Seated oracle
  registered : Registered oracle.board.ballots oracle
  tallied : Tallied reportChecksum oracle.board.ballots oracle
  history : Historic oracle

namespace Sound

theorem marked (sound : Sound reportChecksum oracle) : Marked oracle :=
  ⟨sound.seated, sound.registered⟩

theorem cleared (marked : Marked oracle) (history : Historic oracle)
    (ballots : oracle.board.ballots = [])
    (variants : oracle.reportsVariants = []) :
    Sound reportChecksum oracle := by
  refine ⟨marked.seated, marked.registered, ?_, history⟩
  rw [ballots]
  exact Tallied.cleared variants

theorem fresh (admin : Address) :
    Sound reportChecksum (Oracle.fresh admin : Oracle Variant) :=
  cleared (Marked.fresh admin) (Historic.fresh admin) rfl rfl

theorem restarted {newQuorum : Nat} (sound : Sound reportChecksum oracle)
    (fits : QuorumFits oracle.members newQuorum) :
    Sound reportChecksum (oracle.restarted newQuorum) := by
  apply cleared (sound.marked.restarted fits)
    (sound.history.restarted newQuorum) ?_ rfl
  rw [board_restarted sound.seated.quorum_eq]

theorem changed {members : List Address} {newQuorum : Nat}
    {effect : OracleEffect Variant} (sound : Sound reportChecksum oracle)
    (marked : Marked (((oracle.withMembers members).restarted newQuorum).emit
      effect))
    (silent : effect.pushed = none)
    (ballots : ∀ board : Board,
      (board.after effect).ballots = board.ballots) :
    Sound reportChecksum (((oracle.withMembers members).restarted
      newQuorum).emit effect) := by
  have history : Historic (oracle.withMembers members) :=
    ⟨sound.history.justified, sound.history.increasing, sound.history.below⟩
  apply cleared marked ((history.restarted newQuorum).emit silent) ?_ rfl
  rw [board_emit, ballots, board_restarted]
  exact sound.seated.quorum_eq

theorem replaced {member newAddress : Address} {idx : Nat}
    (sound : Sound reportChecksum oracle)
    (marked : Marked ((oracle.withMembers
      (oracle.members.set idx newAddress)).emit
        (.setMember member newAddress))) :
    Sound reportChecksum ((oracle.withMembers
      (oracle.members.set idx newAddress)).emit
        (.setMember member newAddress)) := by
  have history : Historic
      (oracle.withMembers (oracle.members.set idx newAddress)) :=
    ⟨sound.history.justified, sound.history.increasing, sound.history.below⟩
  refine ⟨marked.seated, marked.registered, ?_, history.emit rfl⟩
  rw [Marked.ballots_replaced]
  exact ⟨sound.tallied.distinct, sound.tallied.known, sound.tallied.counted,
    sound.tallied.undecided, sound.tallied.total⟩

theorem administered {administrable : Administrable}
    (sound : Sound reportChecksum oracle) :
    Sound reportChecksum { oracle with administrable := administrable } :=
  have marked := sound.marked.administered administrable
  ⟨marked.seated, marked.registered,
    ⟨sound.tallied.distinct, sound.tallied.known, sound.tallied.counted,
      sound.tallied.undecided, sound.tallied.total⟩,
    ⟨sound.history.justified, sound.history.increasing,
      sound.history.below⟩⟩

/-- A later epoch starts with an empty poll. -/
theorem startEpoch {epoch : Nat} (sound : Sound reportChecksum oracle)
    (recent : oracle.lastEpochId ≤ epoch) :
    Sound reportChecksum (oracle.startEpoch epoch) := by
  have marked : Marked (oracle.startEpoch epoch) := sound.marked.startEpoch
  unfold Oracle.startEpoch at marked ⊢
  split at marked
  · rename_i later
    rw [if_pos later]
    have told : ({ oracle.clearReports with lastEpochId := epoch }.emit
        (.setLastReportedEpoch epoch)).board =
        { oracle.board with ballots := [] } := by
      rw [board_emit]
      exact Board.replay_append _ _
    apply cleared marked ?_ (by rw [told]) rfl
    apply sound.history.of_silent (List.append_assoc ..) ?_ recent
    intro effect member
    simp only [List.cons_append, List.nil_append, List.mem_cons,
      List.not_mem_nil, or_false] at member
    rcases member with rfl | rfl <;> rfl
  · rename_i current
    rw [if_neg current]
    exact sound

section Vote

variable {E : Type} {river : OracleCalls E} {world worldAfter : E}
  {sender : Address} {memberIndex : Nat} {report : ConsensusLayerReport}

/-- A vote that is only counted. -/
theorem counted {votes : Nat}
    {ballot : Ballot ConsensusLayerReport}
    {ballots : List (Ballot ConsensusLayerReport)}
    (marked : Marked oracle)
    (tallied : Tallied reportChecksum ballots oracle)
    (history : Historic oracle)
    (cast : oracle.board.ballots = ballots ++ [ballot])
    (votes_eq : votes = votesFor reportChecksum ballots
      (reportChecksum ballot.choice))
    (short : votes + 1 < oracle.quorum)
    (counting : Counted oracle (reportChecksum ballot.choice) votes after) :
    Sound reportChecksum after := by
  have markedAfter := marked.of_counted counting
  have talliedAfter := tallied.cast votes_eq short counting
  rw [← cast] at talliedAfter
  cases counting with
  | first none =>
      exact ⟨markedAfter.seated, markedAfter.registered, talliedAfter,
        ⟨history.justified, history.increasing, history.below⟩⟩
  | again stored same equal =>
      exact ⟨markedAfter.seated, markedAfter.registered, talliedAfter,
        ⟨history.justified, history.increasing, history.below⟩⟩

theorem decided (marked : Marked oracle) (history : Historic oracle)
    (agreed : oracle.board.Agreed report)
    (recent : oracle.lastEpochId ≤ report.epoch) :
    Sound reportChecksum (oracle.decided report) := by
  apply cleared (marked.decided report) (history.decided agreed recent) ?_ rfl
  simp only [Oracle.decided, board, Board.replay_append]
  rfl

theorem vote (injective : Function.Injective reportChecksum)
    (sound : Sound reportChecksum oracle)
    (found : OracleMembers.indexOf oracle.members sender = some memberIndex)
    (current : oracle.lastEpochId = report.epoch)
    (returned : Oracle.vote reportChecksum river world oracle sender
      memberIndex report = .ok (after, worldAfter)) :
    Sound reportChecksum after ∧
      oracle.lastEpochId ≤ after.lastEpochId := by
  obtain ⟨inside, fresh, votes, looked, outcome⟩ := vote_ok returned
  have votes_eq := looked.trans
    (sound.tallied.votes_eq (reportChecksum report))
  have told : (oracle.voted sender memberIndex (reportChecksum report) report
      (votes + 1)).board = _ := board_voted sound.seated found
  have marked : Marked (oracle.voted sender memberIndex
      (reportChecksum report) report (votes + 1)) :=
    sound.marked.voted found current.symm inside fresh
  have registered := marked.registered
  rw [told] at registered
  have history : Historic (oracle.voted sender memberIndex
      (reportChecksum report) report (votes + 1)) := by
    have grows : oracle.lastEpochId ≤ (oracle.voted sender memberIndex
        (reportChecksum report) report (votes + 1)).lastEpochId :=
      Nat.le_refl _
    exact sound.history.of_silent rfl (silent_emit rfl) grows
  cases outcome with
  | decided reached answered =>
      have agreed : (oracle.voted sender memberIndex (reportChecksum report)
          report (votes + 1)).board.Agreed report := by
        rw [told]
        refine ⟨?_, registered.distinct, ?_, ?_, ?_⟩
        · rw [sound.seated.quorum_eq]
          exact sound.seated.fits.1 (List.ne_nil_of_length_pos
            ((Nat.zero_le _).trans_lt (OracleMembers.indexOf_lt found)))
        · rw [sound.seated.members_eq]
          exact registered.seated
        · intro ballot cast
          exact (registered.epoch ballot cast).trans current
        · rw [sound.seated.quorum_eq,
            Poll.card_seatsFor injective registered.distinct,
            Poll.votesFor_concat, if_pos rfl, ← votes_eq]
          exact reached
      exact ⟨decided marked history agreed current.le,
        current.le.trans (Nat.le_succ _)⟩
  | counted short counting =>
      refine ⟨?_, ?_⟩
      · have cast : (oracle.voted sender memberIndex (reportChecksum report)
            report (votes + 1)).board.ballots =
            oracle.board.ballots ++ [⟨memberIndex, report⟩] := by
          rw [told]
        exact counted marked sound.tallied.voted history cast votes_eq short
          counting
      · cases counting <;> exact Nat.le_refl _

theorem reportConsensusLayerData
    (injective : Function.Injective reportChecksum)
    (sound : Sound reportChecksum oracle)
    (returned : Oracle.reportConsensusLayerData reportChecksum river world
      oracle sender report = .ok (after, worldAfter)) :
    Sound reportChecksum after ∧
      oracle.lastEpochId ≤ after.lastEpochId := by
  obtain ⟨memberIndex, found, recent, -, voting⟩ :=
    reportConsensusLayerData_eq_ok.mp returned
  have started := sound.startEpoch recent
  obtain ⟨epoch, members, -⟩ := startEpoch_frame recent
  obtain ⟨soundAfter, grows⟩ :=
    started.vote injective (members ▸ found) epoch voting
  exact ⟨soundAfter, recent.trans (epoch.ge.trans grows)⟩

end Vote

theorem manage (sound : Sound reportChecksum oracle)
    (managed : Manage oracle after) :
    Sound reportChecksum after ∧
      oracle.lastEpochId = after.lastEpochId := by
  have marked := sound.marked.manage managed
  cases managed with
  | addMember returned =>
      obtain ⟨-, -, -, rfl⟩ := addMember_ok returned
      refine ⟨sound.changed marked rfl ?_, rfl⟩
      intro board
      rfl
  | removeMember returned =>
      obtain ⟨idx, -, -, rfl⟩ := removeMember_ok returned
      refine ⟨sound.changed marked rfl ?_, rfl⟩
      intro board
      simp only [Board.after]
      split <;> rfl
  | setMember returned =>
      obtain ⟨-, -, idx, -, rfl⟩ := setMember_ok returned
      exact ⟨sound.replaced marked, rfl⟩
  | setQuorum returned =>
      obtain ⟨fits, rfl⟩ := setQuorum_ok returned
      exact ⟨sound.restarted fits, rfl⟩
  | proposeAdmin returned => exact ⟨sound.administered, rfl⟩
  | acceptAdmin returned => exact ⟨sound.administered, rfl⟩

theorem step (injective : Function.Injective reportChecksum)
    (sound : Sound reportChecksum oracle)
    (step : Step reportChecksum oracle after) :
    Sound reportChecksum after ∧
      oracle.lastEpochId ≤ after.lastEpochId := by
  cases step with
  | manage managed =>
      obtain ⟨soundAfter, same⟩ := sound.manage managed
      exact ⟨soundAfter, same.le⟩
  | reportConsensusLayerData returned =>
      exact sound.reportConsensusLayerData injective returned

theorem run (injective : Function.Injective reportChecksum)
    (sound : Sound reportChecksum oracle)
    (run : Relation.ReflTransGen (Step reportChecksum) oracle after) :
    Sound reportChecksum after ∧
      oracle.lastEpochId ≤ after.lastEpochId := by
  induction run with
  | refl => exact ⟨sound, Nat.le_refl _⟩
  | tail _ step induction =>
      obtain ⟨soundMiddle, grows⟩ := induction
      obtain ⟨soundAfter, growsAfter⟩ := soundMiddle.step injective step
      exact ⟨soundAfter, grows.trans growsAfter⟩

end Sound

/-- Every report sent to River was agreed on, and in every reachable state
the pending votes are those of distinct seats. -/
theorem oracle_agreement (injective : Function.Injective reportChecksum)
    (reachable : Reachable reportChecksum oracle) :
    (∀ (before later : List (OracleEffect Variant))
      (report : ConsensusLayerReport),
      oracle.effects = before ++ .setConsensusLayerData report :: later →
      ∃ prior, before = prior ++ [.clearedReporting] ∧
        (Board.replay prior).Agreed report) ∧
    oracle.board.members = oracle.members ∧
    oracle.board.quorum = oracle.quorum ∧
    (oracle.reportsVariants.map (·.votes)).sum =
      (Bitmap.members oracle.reportsPositions).card ∧
    (∀ details ∈ oracle.reportsVariants,
      1 ≤ details.votes ∧ details.votes ≤ oracle.quorum - 1) ∧
    (oracle.reportsVariants.map (·.variant)).Nodup ∧
    oracle.members.Nodup ∧ .zero ∉ oracle.members ∧
    (oracle.members ≠ [] →
      1 ≤ oracle.quorum ∧ oracle.quorum ≤ oracle.members.length) ∧
    (oracle.pushedReports.map (·.epoch)).Pairwise (· < ·) ∧
    ∀ after, Relation.ReflTransGen (Step reportChecksum) oracle after →
      oracle.lastEpochId ≤ after.lastEpochId := by
  obtain ⟨admin, run⟩ := reachable
  obtain ⟨sound, -⟩ := (Sound.fresh admin).run injective run
  refine ⟨?_, sound.seated.members_eq, sound.seated.quorum_eq, ?_, ?_,
    sound.tallied.distinct, sound.seated.nodup, sound.seated.nonzero, ?_,
    sound.history.increasing, ?_⟩
  · intro before later report split
    exact sound.history.justified before _ later split report rfl
  · rw [sound.tallied.total, sound.registered.card_positions]
  · intro details member
    obtain ⟨positive, short⟩ := sound.tallied.undecided details member
    exact ⟨positive, Nat.le_sub_one_of_lt short⟩
  · intro nonempty
    exact ⟨sound.seated.fits.1 nonempty, sound.seated.fits.2⟩
  · intro after later
    exact (sound.run injective later).2

end Sound

section Sample

def sampleReport : ConsensusLayerReport :=
  { epoch := 225
    validatorsBalance := 0
    validatorsSkimmedBalance := 0
    validatorsExitedBalance := 0
    validatorsExitingBalance := 0
    validatorsCount := 0
    rebalanceDepositToRedeemMode := false
    slashingContainmentMode := false
    stoppedValidatorCountPerOperator := [0] }

/-- River accepts every report. -/
def acceptingRiver : OracleCalls Unit :=
  { isValidEpoch := fun _ _ => .ok true
    setConsensusLayerData := fun world _ => .ok world }

/-- Two members with a quorum of two: the first votes and passes its seat on,
then the second votes. -/
def sampleRun : Except Error (Oracle ConsensusLayerReport) := do
  let admin := .ofNat 10
  let first := .ofNat 1
  let second := .ofNat 2
  let alone ← (fresh admin).addMember admin first 1
  let both ← alone.addMember admin second 2
  let (voted, _) ← both.reportConsensusLayerData id acceptingRiver () first
    sampleReport
  let passed ← voted.setMember first first (.ofNat 3)
  let (decided, _) ← passed.reportConsensusLayerData id acceptingRiver ()
    second sampleReport
  return decided

theorem sampleRun_reachable {oracle : Oracle ConsensusLayerReport}
    (returned : sampleRun = .ok oracle) : Reachable id oracle := by
  simp only [sampleRun, bind_eq_ok, pure_eq_ok, Prod.exists] at returned
  obtain ⟨alone, first, both, second, voted, _, voting, passed, passing,
    decided, _, deciding, rfl⟩ := returned
  have run : Relation.ReflTransGen (Step id) (fresh (.ofNat 10)) both :=
    (Relation.ReflTransGen.single (.manage (.addMember first))).tail
      (.manage (.addMember second))
  have cast := run.tail (.reportConsensusLayerData voting)
  exact ⟨_, (cast.tail (.manage (.setMember passing))).tail
    (.reportConsensusLayerData deciding)⟩

theorem oracle_agreement_sample :
    ∃ oracle prior, sampleRun = .ok oracle ∧
      oracle.members = [.ofNat 3, .ofNat 2] ∧
      oracle.effects = prior ++ [.clearedReporting] ++
        [.setConsensusLayerData sampleReport, .setLastReportedEpoch 226] ∧
      (Board.replay prior).Agreed sampleReport := by
  have checked : returns sampleRun (fun oracle =>
      oracle.members = [.ofNat 3, .ofNat 2] ∧
        oracle.effects.drop 14 = [.setConsensusLayerData sampleReport,
          .setLastReportedEpoch 226]) = true := by
    decide +kernel
  obtain ⟨oracle, returned, facts⟩ := returns_iff.mp checked
  obtain ⟨members, last⟩ := of_decide_eq_true facts
  have split : oracle.effects = oracle.effects.take 14 ++
      [.setConsensusLayerData sampleReport, .setLastReportedEpoch 226] := by
    rw [← last, List.take_append_drop]
  obtain ⟨prior, before, agreed⟩ :=
    (oracle_agreement Function.injective_id (sampleRun_reachable returned)).1
      _ _ _ split
  rw [before] at split
  exact ⟨oracle, prior, returned, members, split, agreed⟩

end Sample

end Oracle

end RiverProtocol
