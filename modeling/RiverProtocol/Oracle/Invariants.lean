import RiverProtocol.Lib.Lists
import RiverProtocol.Lib.Poll
import RiverProtocol.Oracle.Steps

/-!
# The poll of the oracle members

An observer who only sees the effects can replay the member seats, the quorum
and the ballots cast since the last clear.  The bitmap of the contract is the
set of seats of these ballots, and its counters are their votes.
-/

namespace RiverProtocol

open Checked Outcome Lists

open Poll (Ballot seats votesFor)

/-- What the effects tell. -/
structure Board where
  members : List Address
  quorum : Nat
  ballots : List (Ballot ConsensusLayerReport)

namespace Board

variable {Variant : Type}

/-- The board after one more effect.  A vote is cast from the seat its member
has at that moment. -/
def after (board : Board) : OracleEffect Variant → Board
  | .setQuorum newQuorum => { board with quorum := newQuorum }
  | .addMember member => { board with members := board.members ++ [member] }
  | .removeMember member =>
    match OracleMembers.indexOf board.members member with
    | none => board
    | some idx =>
      { board with members := OracleMembers.removed board.members idx }
  | .setMember oldAddress newAddress =>
    match OracleMembers.indexOf board.members oldAddress with
    | none => board
    | some idx => { board with members := board.members.set idx newAddress }
  | .clearedReporting => { board with ballots := [] }
  | .reportedConsensusLayerData member _ report _ _ =>
    match OracleMembers.indexOf board.members member with
    | none => board
    | some seat => { board with ballots := board.ballots ++ [⟨seat, report⟩] }
  | .setLastReportedEpoch _ => board
  | .setConsensusLayerData _ => board

/-- The board after all effects. -/
def replay (effects : List (OracleEffect Variant)) : Board :=
  effects.foldl after { members := [], quorum := 0, ballots := [] }

theorem replay_append (effects later : List (OracleEffect Variant)) :
    replay (effects ++ later) = later.foldl after (replay effects) :=
  List.foldl_append

end Board

namespace Oracle

variable {Variant : Type} {oracle after : Oracle Variant}

def board (oracle : Oracle Variant) : Board := Board.replay oracle.effects

structure Seated (oracle : Oracle Variant) : Prop where
  members_eq : oracle.board.members = oracle.members
  quorum_eq : oracle.board.quorum = oracle.quorum
  nodup : oracle.members.Nodup
  nonzero : .zero ∉ oracle.members
  fits : QuorumFits oracle.members oracle.quorum

theorem board_emit (effect : OracleEffect Variant) :
    (oracle.emit effect).board = oracle.board.after effect :=
  Board.replay_append _ _

theorem Seated.dropped {after : Oracle Variant} (seated : Seated oracle)
    (told : after.board = { oracle.board with ballots := [] })
    (members : after.members = oracle.members)
    (quorum : after.quorum = oracle.quorum) : Seated after := by
  refine ⟨?_, ?_, ?_, ?_, ?_⟩
  · rw [told, members]
    exact seated.members_eq
  · rw [told, quorum]
    exact seated.quorum_eq
  · rw [members]
    exact seated.nodup
  · rw [members]
    exact seated.nonzero
  · rw [members, quorum]
    exact seated.fits

theorem board_restarted (quorum_eq : oracle.board.quorum = oracle.quorum)
    (newQuorum : Nat) : (oracle.restarted newQuorum).board =
      { members := oracle.board.members, quorum := newQuorum,
        ballots := [] } := by
  simp only [board, restarted, Board.replay_append]
  split
  · rfl
  · rename_i unchanged
    simp only [ne_eq, Decidable.not_not] at unchanged
    rw [unchanged, ← quorum_eq]
    rfl

namespace Seated

theorem fresh (admin : Address) :
    Seated (Oracle.fresh admin : Oracle Variant) :=
  ⟨rfl, rfl, List.nodup_nil, List.not_mem_nil,
    fun nonempty => absurd rfl nonempty, Nat.le_refl _⟩

theorem restarted {newQuorum : Nat} (seated : Seated oracle)
    (fits : QuorumFits oracle.members newQuorum) :
    Seated (oracle.restarted newQuorum) := by
  have replayed := board_restarted seated.quorum_eq newQuorum
  refine ⟨?_, ?_, seated.nodup, seated.nonzero, fits⟩
  · rw [replayed]
    exact seated.members_eq
  · rw [replayed]
    rfl

/-- The members are replaced, and the observer is told afterwards. -/
theorem changed {members : List Address} {newQuorum : Nat}
    {effect : OracleEffect Variant} (seated : Seated oracle)
    (members_eq : ∀ board : Board, board.members = oracle.members →
      (board.after effect).members = members)
    (quorum_eq : ∀ board : Board,
      (board.after effect).quorum = board.quorum)
    (nodup : members.Nodup) (nonzero : .zero ∉ members)
    (fits : QuorumFits members newQuorum) :
    Seated (((oracle.withMembers members).restarted newQuorum).emit
      effect) := by
  have replayed : ((oracle.withMembers members).restarted newQuorum).board =
      _ := board_restarted seated.quorum_eq newQuorum
  refine ⟨?_, ?_, nodup, nonzero, fits⟩
  · rw [board_emit, replayed]
    exact members_eq _ seated.members_eq
  · rw [board_emit, quorum_eq, replayed]
    rfl

theorem added {member : Address} {newQuorum : Nat} (seated : Seated oracle)
    (unknown : member ∉ oracle.members) (named : member ≠ .zero)
    (fits : QuorumFits (oracle.members ++ [member]) newQuorum) :
    Seated (((oracle.withMembers (oracle.members ++ [member])).restarted
      newQuorum).emit (.addMember member)) := by
  apply seated.changed ?_ ?_ ?_ ?_ fits
  · intro board same
    exact congrArg (· ++ [member]) same
  · intro board
    rfl
  · rw [← List.concat_eq_append]
    exact List.Nodup.concat unknown seated.nodup
  · rw [List.mem_append, List.mem_singleton, not_or]
    exact ⟨seated.nonzero, Ne.symm named⟩

theorem removed {member : Address} {idx newQuorum : Nat}
    (seated : Seated oracle)
    (found : OracleMembers.indexOf oracle.members member = some idx)
    (fits : QuorumFits (OracleMembers.removed oracle.members idx)
      newQuorum) :
    Seated (((oracle.withMembers (OracleMembers.removed oracle.members
      idx)).restarted newQuorum).emit (.removeMember member)) := by
  apply seated.changed ?_ ?_ ?_ ?_ fits
  · intro board same
    simp only [Board.after, same, found]
  · intro board
    simp only [Board.after]
    split <;> rfl
  · exact OracleMembers.removed_nodup seated.nodup
  · exact fun member => seated.nonzero
      (OracleMembers.mem_of_mem_removed member)

/-- A seat passes to another address. -/
theorem replaced {member newAddress : Address} {idx : Nat}
    (seated : Seated oracle)
    (found : OracleMembers.indexOf oracle.members member = some idx)
    (unknown : newAddress ∉ oracle.members) (named : newAddress ≠ .zero) :
    Seated ((oracle.withMembers (oracle.members.set idx newAddress)).emit
      (.setMember member newAddress)) := by
  have inside := OracleMembers.indexOf_lt found
  have told : ((oracle.withMembers (oracle.members.set idx newAddress)).emit
      (.setMember member newAddress)).board =
      { oracle.board with
        members := oracle.board.members.set idx newAddress } := by
    rw [board_emit]
    have same : (oracle.withMembers
        (oracle.members.set idx newAddress)).board.members =
        oracle.members := seated.members_eq
    simp only [Board.after, same, found]
    rw [seated.members_eq]
    rfl
  refine ⟨?_, ?_, seated.nodup.set unknown, ?_, ?_⟩
  · rw [told]
    exact congrArg (·.set idx newAddress) seated.members_eq
  · rw [told]
    exact seated.quorum_eq
  · intro member
    rcases List.mem_or_eq_of_mem_set member with old | new
    · exact seated.nonzero old
    · exact named new.symm
  · obtain ⟨positive, bounded⟩ := seated.fits
    refine ⟨?_, ?_⟩
    · intro _
      exact positive (List.ne_nil_of_length_pos
        ((Nat.zero_le _).trans_lt inside))
    · exact bounded.trans_eq (List.length_set ..).symm

end Seated

theorem board_voted {sender : Address} {memberIndex voteCount : Nat}
    {variant : Variant} {report : ConsensusLayerReport}
    (seated : Seated oracle)
    (found : OracleMembers.indexOf oracle.members sender =
      some memberIndex) :
    (oracle.voted sender memberIndex variant report voteCount).board =
      { oracle.board with
        ballots := oracle.board.ballots ++ [⟨memberIndex, report⟩] } := by
  have told : (oracle.voted sender memberIndex variant report
      voteCount).board = oracle.board.after (.reportedConsensusLayerData
        sender variant report voteCount oracle.quorum) :=
    Board.replay_append _ _
  rw [told]
  simp only [Board.after, seated.members_eq, found]

section Poll

variable {reportChecksum : ConsensusLayerReport → Variant}
  {ballots : List (Ballot ConsensusLayerReport)}
  {ballot : Ballot ConsensusLayerReport}

/-- The bitmap is the set of seats that voted in this epoch. -/
structure Registered (ballots : List (Ballot ConsensusLayerReport))
    (oracle : Oracle Variant) : Prop where
  distinct : (seats ballots).Nodup
  seated : ∀ ballot ∈ ballots, ballot.seat < oracle.members.length
  epoch : ∀ ballot ∈ ballots, ballot.choice.epoch = oracle.lastEpochId
  positions : Bitmap.members oracle.reportsPositions =
    (seats ballots).toFinset

namespace Registered

theorem cleared (positions : oracle.reportsPositions = 0) :
    Registered [] oracle := by
  refine ⟨List.nodup_nil, ?_, ?_, ?_⟩
  · simp
  · simp
  · rw [positions]
    exact Bitmap.members_zero

theorem card_positions (registered : Registered ballots oracle) :
    (Bitmap.members oracle.reportsPositions).card = ballots.length := by
  rw [registered.positions, List.toFinset_card_of_nodup registered.distinct,
    Poll.length_seats]

theorem voted {sender : Address} {variant : Variant} {voteCount : Nat}
    (registered : Registered ballots oracle) (inside : ballot.seat < 256)
    (fresh : ballot.seat ∉ Bitmap.members oracle.reportsPositions)
    (seated : ballot.seat < oracle.members.length)
    (epoch : ballot.choice.epoch = oracle.lastEpochId) :
    Registered (ballots ++ [ballot])
      (oracle.voted sender ballot.seat variant ballot.choice voteCount) := by
  refine ⟨?_, ?_, ?_, ?_⟩
  · apply Poll.seats_nodup_concat registered.distinct
    rw [registered.positions, List.mem_toFinset] at fresh
    exact fresh
  · exact forall_mem_concat registered.seated seated
  · exact forall_mem_concat registered.epoch epoch
  · have marked : Bitmap.members (ReportsPositions.register
        oracle.reportsPositions ballot.seat) =
        insert ballot.seat (Bitmap.members oracle.reportsPositions) :=
      Bitmap.members_or_mask inside
    rw [Poll.seats_concat, List.toFinset_append, ← registered.positions]
    refine marked.trans ?_
    rw [List.toFinset_cons, List.toFinset_nil, Finset.union_comm]
    rfl

theorem of_counted [DecidableEq Variant] {variant : Variant} {votes : Nat}
    (registered : Registered ballots oracle)
    (counted : Counted oracle variant votes after) :
    Registered ballots after := by
  cases counted with
  | first none =>
      exact ⟨registered.distinct, registered.seated, registered.epoch,
        registered.positions⟩
  | again stored same counted =>
      exact ⟨registered.distinct, registered.seated, registered.epoch,
        registered.positions⟩

end Registered

/-- The members and the bitmap are those the observer sees. -/
structure Marked (oracle : Oracle Variant) : Prop where
  seated : Seated oracle
  registered : Registered oracle.board.ballots oracle

namespace Marked

variable {sender : Address} {memberIndex voteCount : Nat} {variant : Variant}
  {report : ConsensusLayerReport}

theorem cleared (seated : Seated oracle) (ballots : oracle.board.ballots = [])
    (positions : oracle.reportsPositions = 0) : Marked oracle := by
  refine ⟨seated, ?_⟩
  rw [ballots]
  exact Registered.cleared positions

theorem fresh (admin : Address) :
    Marked (Oracle.fresh admin : Oracle Variant) :=
  cleared (Seated.fresh admin) rfl rfl

theorem restarted {newQuorum : Nat} (marked : Marked oracle)
    (fits : QuorumFits oracle.members newQuorum) :
    Marked (oracle.restarted newQuorum) := by
  apply cleared (marked.seated.restarted fits) ?_ rfl
  rw [board_restarted marked.seated.quorum_eq]

theorem changed {members : List Address} {newQuorum : Nat}
    {effect : OracleEffect Variant} (marked : Marked oracle)
    (seated : Seated (((oracle.withMembers members).restarted newQuorum).emit
      effect))
    (ballots : ∀ board : Board,
      (board.after effect).ballots = board.ballots) :
    Marked (((oracle.withMembers members).restarted newQuorum).emit
      effect) := by
  apply cleared seated ?_ rfl
  rw [board_emit, ballots, board_restarted]
  exact marked.seated.quorum_eq

theorem ballots_replaced (members : List Address)
    (oldAddress newAddress : Address) :
    ((oracle.withMembers members).emit
      (.setMember oldAddress newAddress)).board.ballots =
        oracle.board.ballots := by
  rw [board_emit]
  simp only [Board.after]
  split <;> rfl

theorem replaced {member newAddress : Address} {idx : Nat}
    (marked : Marked oracle)
    (found : OracleMembers.indexOf oracle.members member = some idx)
    (unknown : newAddress ∉ oracle.members) (named : newAddress ≠ .zero) :
    Marked ((oracle.withMembers (oracle.members.set idx newAddress)).emit
      (.setMember member newAddress)) := by
  refine ⟨marked.seated.replaced found unknown named, ?_⟩
  rw [ballots_replaced]
  refine ⟨marked.registered.distinct, ?_, marked.registered.epoch,
    marked.registered.positions⟩
  intro ballot cast
  exact (marked.registered.seated ballot cast).trans_eq
    (List.length_set ..).symm

theorem administered (marked : Marked oracle)
    (administrable : Administrable) :
    Marked { oracle with administrable := administrable } :=
  ⟨⟨marked.seated.members_eq, marked.seated.quorum_eq, marked.seated.nodup,
    marked.seated.nonzero, marked.seated.fits⟩,
    ⟨marked.registered.distinct, marked.registered.seated,
      marked.registered.epoch, marked.registered.positions⟩⟩

theorem manage (marked : Marked oracle) (managed : Manage oracle after) :
    Marked after := by
  cases managed with
  | addMember returned =>
      obtain ⟨unknown, named, fits, rfl⟩ := addMember_ok returned
      apply marked.changed (marked.seated.added unknown named fits)
      intro board
      rfl
  | removeMember returned =>
      obtain ⟨idx, found, fits, rfl⟩ := removeMember_ok returned
      apply marked.changed (marked.seated.removed found fits)
      intro board
      simp only [Board.after]
      split <;> rfl
  | setMember returned =>
      obtain ⟨named, unknown, idx, found, rfl⟩ := setMember_ok returned
      exact marked.replaced found unknown named
  | setQuorum returned =>
      obtain ⟨fits, rfl⟩ := setQuorum_ok returned
      exact marked.restarted fits
  | proposeAdmin returned => exact marked.administered _
  | acceptAdmin returned => exact marked.administered _

theorem startEpoch {epoch : Nat} (marked : Marked oracle) :
    Marked (oracle.startEpoch epoch) := by
  unfold Oracle.startEpoch
  split
  · have told : ({ oracle.clearReports with lastEpochId := epoch }.emit
        (.setLastReportedEpoch epoch)).board =
        { oracle.board with ballots := [] } := by
      rw [board_emit]
      exact Board.replay_append _ _
    apply cleared (marked.seated.dropped told rfl rfl) ?_ rfl
    rw [told]
  · exact marked

/-- The voting seat is marked. -/
theorem voted (marked : Marked oracle)
    (found : OracleMembers.indexOf oracle.members sender = some memberIndex)
    (current : report.epoch = oracle.lastEpochId)
    (inside : memberIndex < 256)
    (fresh : memberIndex ∉ Bitmap.members oracle.reportsPositions) :
    Marked (oracle.voted sender memberIndex variant report voteCount) := by
  have told : (oracle.voted sender memberIndex variant report
      voteCount).board = _ := board_voted marked.seated found
  refine ⟨⟨?_, ?_, marked.seated.nodup, marked.seated.nonzero,
    marked.seated.fits⟩, ?_⟩
  · rw [told]
    exact marked.seated.members_eq
  · rw [told]
    exact marked.seated.quorum_eq
  · rw [told]
    exact marked.registered.voted inside fresh
      (OracleMembers.indexOf_lt found) current

theorem decided (marked : Marked oracle) (report : ConsensusLayerReport) :
    Marked (oracle.decided report) := by
  have told : (oracle.decided report).board =
      { oracle.board with ballots := [] } := by
    simp only [Oracle.decided, board, Board.replay_append]
    rfl
  apply cleared (marked.seated.dropped told rfl rfl) ?_ rfl
  rw [told]

theorem of_counted [DecidableEq Variant] {votes : Nat}
    (marked : Marked oracle) (counted : Counted oracle variant votes after) :
    Marked after := by
  have registered := marked.registered.of_counted counted
  cases counted with
  | first none =>
      exact ⟨⟨marked.seated.members_eq, marked.seated.quorum_eq,
        marked.seated.nodup, marked.seated.nonzero, marked.seated.fits⟩,
        registered⟩
  | again stored same equal =>
      exact ⟨⟨marked.seated.members_eq, marked.seated.quorum_eq,
        marked.seated.nodup, marked.seated.nonzero, marked.seated.fits⟩,
        registered⟩

/-- Whatever River answers, a call leaves the marks the observer sees. -/
theorem step [DecidableEq Variant] (marked : Marked oracle)
    (step : Step reportChecksum oracle after) : Marked after := by
  cases step with
  | manage managed => exact marked.manage managed
  | reportConsensusLayerData returned =>
      obtain ⟨memberIndex, found, recent, -, voting⟩ :=
        reportConsensusLayerData_eq_ok.mp returned
      obtain ⟨epoch, members, -⟩ := startEpoch_frame recent
      obtain ⟨inside, fresh, votes, -, outcome⟩ := vote_ok voting
      cases outcome with
      | decided reached answered =>
          exact (marked.startEpoch.voted (members ▸ found) epoch.symm inside
            fresh).decided _
      | counted short counting =>
          exact (marked.startEpoch.voted (members ▸ found) epoch.symm inside
            fresh).of_counted counting

theorem of_reachable [DecidableEq Variant]
    (reachable : Reachable reportChecksum oracle) : Marked oracle := by
  obtain ⟨admin, run⟩ := reachable
  induction run with
  | refl => exact fresh admin
  | tail _ step induction => exact induction.step step

end Marked

variable [DecidableEq Variant]

/-- Each counter is the number of ballots with its checksum, and none has
reached the quorum. -/
structure Tallied (reportChecksum : ConsensusLayerReport → Variant)
    (ballots : List (Ballot ConsensusLayerReport))
    (oracle : Oracle Variant) : Prop where
  distinct : (oracle.reportsVariants.map (·.variant)).Nodup
  known : ∀ ballot ∈ ballots,
    reportChecksum ballot.choice ∈ oracle.reportsVariants.map (·.variant)
  counted : ∀ details ∈ oracle.reportsVariants,
    details.votes = votesFor reportChecksum ballots details.variant
  undecided : ∀ details ∈ oracle.reportsVariants,
    1 ≤ details.votes ∧ details.votes < oracle.quorum
  total : (oracle.reportsVariants.map (·.votes)).sum = ballots.length

namespace Tallied

theorem cleared (variants : oracle.reportsVariants = []) :
    Tallied reportChecksum [] oracle := by
  constructor <;> simp [variants]

theorem votes_eq (tallied : Tallied reportChecksum ballots oracle)
    (variant : Variant) :
    (oracle.getReportVariantIndexAndVotes variant).2 =
      votesFor reportChecksum ballots variant := by
  unfold getReportVariantIndexAndVotes
  rcases findVariant_eq variant 0 oracle.reportsVariants with
    ⟨stop, unknown⟩ | ⟨idx, details, stop, stored, same⟩
  · rw [stop, Poll.votesFor_eq_zero]
    intro ballot member keyed
    exact unknown (keyed ▸ tallied.known ballot member)
  · rw [stop, tallied.counted details (List.mem_of_getElem? stored), same]

theorem voted {sender : Address} {memberIndex voteCount : Nat}
    {variant : Variant} {report : ConsensusLayerReport}
    (tallied : Tallied reportChecksum ballots oracle) :
    Tallied reportChecksum ballots
      (oracle.voted sender memberIndex variant report voteCount) :=
  ⟨tallied.distinct, tallied.known, tallied.counted, tallied.undecided,
    tallied.total⟩

theorem unknown_of_zero {variant : Variant}
    (tallied : Tallied reportChecksum ballots oracle)
    (none : votesFor reportChecksum ballots variant = 0) :
    variant ∉ oracle.reportsVariants.map (·.variant) := by
  intro member
  obtain ⟨details, stored, rfl⟩ := List.mem_map.mp member
  have counted := tallied.counted details stored
  have positive := (tallied.undecided details stored).1
  omega

theorem votes_lt (tallied : Tallied reportChecksum ballots oracle)
    (positive : 0 < oracle.quorum) (variant : Variant) :
    votesFor reportChecksum ballots variant < oracle.quorum := by
  by_cases listed : variant ∈ oracle.reportsVariants.map (·.variant)
  · obtain ⟨details, stored, rfl⟩ := List.mem_map.mp listed
    rw [← tallied.counted details stored]
    exact (tallied.undecided details stored).2
  · rw [Poll.votesFor_eq_zero]
    · exact positive
    · intro ballot member keyed
      exact listed (keyed ▸ tallied.known ballot member)

theorem first (tallied : Tallied reportChecksum ballots oracle)
    (none : votesFor reportChecksum ballots
      (reportChecksum ballot.choice) = 0)
    (short : 1 < oracle.quorum) :
    Tallied reportChecksum (ballots ++ [ballot]) { oracle with
      reportsVariants := oracle.reportsVariants ++
        [⟨reportChecksum ballot.choice, 1⟩] } := by
  have unknown := tallied.unknown_of_zero none
  refine ⟨?_, ?_, ?_, ?_, ?_⟩
  · rw [List.map_append, List.map_singleton, ← List.concat_eq_append]
    exact List.Nodup.concat unknown tallied.distinct
  · rw [List.map_append]
    apply forall_mem_concat
    · intro other cast
      exact List.mem_append_left _ (tallied.known other cast)
    · exact List.mem_append_right _ (List.mem_singleton_self _)
  · apply forall_mem_concat
    · intro details stored
      have other : reportChecksum ballot.choice ≠ details.variant := by
        intro same
        exact unknown (same ▸ List.mem_map_of_mem stored)
      rw [Poll.votesFor_concat, if_neg other]
      exact tallied.counted details stored
    · rw [Poll.votesFor_concat, none, if_pos rfl]
  · exact forall_mem_concat tallied.undecided ⟨Nat.le_refl _, short⟩
  · simp [tallied.total]

theorem again {idx : Nat} {details : ReportVariantDetails Variant}
    (tallied : Tallied reportChecksum ballots oracle)
    (stored : oracle.reportsVariants[idx]? = some details)
    (same : details.variant = reportChecksum ballot.choice)
    (short : details.votes + 1 < oracle.quorum) :
    Tallied reportChecksum (ballots ++ [ballot]) { oracle with
      reportsVariants := oracle.reportsVariants.set idx
        ⟨reportChecksum ballot.choice, details.votes + 1⟩ } := by
  have keyed : (oracle.reportsVariants.map (·.variant))[idx]? =
      some (reportChecksum ballot.choice) := by
    rw [List.getElem?_map, stored, Option.map_some, same]
  have kept : (oracle.reportsVariants.set idx
      ⟨reportChecksum ballot.choice, details.votes + 1⟩).map (·.variant) =
      oracle.reportsVariants.map (·.variant) := by
    obtain ⟨inside, at_idx⟩ := List.getElem?_eq_some_iff.mp keyed
    rw [List.map_set, ← at_idx, List.set_getElem_self]
  have member := List.mem_of_getElem? stored
  refine ⟨?_, ?_, ?_, ?_, ?_⟩
  · rw [kept]
    exact tallied.distinct
  · rw [kept]
    exact forall_mem_concat tallied.known (List.mem_of_getElem? keyed)
  · intro other otherMember
    rw [Poll.votesFor_concat]
    obtain ⟨position, found⟩ := List.mem_iff_getElem?.mp otherMember
    rcases getElem?_set_cases found with ⟨apart, old⟩ | ⟨rfl, rfl⟩
    · have different : reportChecksum ballot.choice ≠ other.variant := by
        intro equal
        have inside := (List.getElem?_eq_some_iff.mp keyed).1
        apply apart
        symm
        apply (List.getElem?_inj inside tallied.distinct).mp
        rw [keyed, List.getElem?_map, old, Option.map_some, equal]
      rw [if_neg different]
      exact tallied.counted other (List.mem_of_getElem? old)
    · rw [if_pos rfl, tallied.counted details member, same]
  · apply forall_mem_set tallied.undecided
    exact ⟨Nat.succ_pos _, short⟩
  · have total := sum_map_set (·.votes)
      (⟨reportChecksum ballot.choice, details.votes + 1⟩ :
        ReportVariantDetails Variant) stored
    have before := tallied.total
    dsimp only at total ⊢
    rw [List.length_append, List.length_singleton]
    omega

theorem cast {votes : Nat} (tallied : Tallied reportChecksum ballots oracle)
    (votes_eq : votes = votesFor reportChecksum ballots
      (reportChecksum ballot.choice))
    (short : votes + 1 < oracle.quorum)
    (counted : Counted oracle (reportChecksum ballot.choice) votes after) :
    Tallied reportChecksum (ballots ++ [ballot]) after := by
  cases counted with
  | first none =>
      subst none
      exact tallied.first votes_eq.symm short
  | again stored same equal =>
      subst equal
      exact tallied.again stored same short

end Tallied

end Poll

end Oracle

end RiverProtocol
