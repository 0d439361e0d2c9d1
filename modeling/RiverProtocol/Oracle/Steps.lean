import Mathlib.Data.List.Nodup
import RiverProtocol.Oracle.Model

/-!
# What each call of the oracle does

One lemma for each function describes the state a returning call leaves.
-/

namespace RiverProtocol

open Checked Outcome

namespace OracleMembers

variable {members after : List Address} {account : Address} {idx : Nat}

theorem indexOf_eq_none : indexOf members account = none ↔
    account ∉ members :=
  List.idxOf?_eq_none_iff

theorem indexOf_lt (found : indexOf members account = some idx) :
    idx < members.length :=
  (List.idxOf?_eq_some_iff.mp found).1

theorem indexOf_of_mem (known : account ∈ members) :
    indexOf members account = some (members.idxOf account) := by
  apply List.idxOf?_eq_some_iff.mpr
  refine ⟨List.idxOf_lt_length_of_mem known, List.getElem_idxOf _, ?_⟩
  intro position earlier
  simpa using List.not_of_lt_findIdx earlier

/-- The members without the one at a seat, which the last member takes. -/
def removed (members : List Address) (idx : Nat) : List Address :=
  match members.getLast? with
  | none => []
  | some last => members.dropLast.set idx last

theorem removed_concat (initial : List Address) (last : Address) :
    removed (initial ++ [last]) idx = initial.set idx last := by
  rw [removed, List.getLast?_concat, List.dropLast_concat]

theorem deleteItem_ok (returned : deleteItem members idx = .ok after)
    (inside : idx < members.length) : after = removed members idx := by
  rcases List.eq_nil_or_concat' members with rfl | ⟨initial, last, rfl⟩
  · exact absurd inside (Nat.not_lt_zero _)
  · simp only [deleteItem, bind_eq_ok, usub_eq_ok] at returned
    obtain ⟨lastIdx, ⟨-, rfl⟩, returned⟩ := returned
    rw [removed_concat]
    simp only [List.length_append, List.length_singleton,
      Nat.add_sub_cancel] at returned inside
    split at returned
    · rename_i other
      simp only [bind_eq_ok, fetch_eq_ok, pure_eq_ok] at returned
      obtain ⟨found, lastFound, -, -, rfl⟩ := returned
      rw [List.getElem?_concat_length] at lastFound
      cases lastFound
      rw [List.set_append_left _ _ (by omega), List.dropLast_concat]
    · rename_i same
      simp only [ne_eq, Decidable.not_not] at same
      rw [pure_eq_ok, List.dropLast_concat] at returned
      rw [← returned, ← same, List.set_eq_of_length_le (Nat.le_refl _)]

theorem mem_of_mem_removed (member : account ∈ removed members idx) :
    account ∈ members := by
  rcases List.eq_nil_or_concat' members with rfl | ⟨initial, last, rfl⟩
  · simp [removed] at member
  · rw [removed_concat] at member
    rw [List.mem_append, List.mem_singleton]
    exact List.mem_or_eq_of_mem_set member

theorem removed_nodup (nodup : members.Nodup) :
    (removed members idx).Nodup := by
  rcases List.eq_nil_or_concat' members with rfl | ⟨initial, last, rfl⟩
  · exact List.nodup_nil
  · rw [removed_concat]
    rw [List.nodup_append] at nodup
    obtain ⟨nodup, -, apart⟩ := nodup
    apply List.Nodup.set nodup
    intro member
    exact apart last member last (List.mem_singleton_self _) rfl

end OracleMembers

namespace Oracle

variable {Variant : Type} {oracle after : Oracle Variant}

/-- The oracle with another member list. -/
def withMembers (oracle : Oracle Variant) (members : List Address) :
    Oracle Variant :=
  { oracle with members := members }

/-- The oracle with no votes and another quorum. -/
def restarted (oracle : Oracle Variant) (newQuorum : Nat) : Oracle Variant :=
  { oracle with
    quorum := newQuorum
    reportsPositions := 0
    reportsVariants := []
    effects := oracle.effects ++ .clearedReporting ::
      if newQuorum ≠ oracle.quorum then [.setQuorum newQuorum] else [] }

/-- The quorum is between one and the number of members, or zero where there
are none. -/
def QuorumFits (members : List Address) (quorum : Nat) : Prop :=
  (members ≠ [] → 1 ≤ quorum) ∧ quorum ≤ members.length

theorem clearReportsAndSetQuorum_ok {newQuorum : Nat}
    (returned : oracle.clearReportsAndSetQuorum newQuorum oracle.quorum =
      .ok after) :
    QuorumFits oracle.members newQuorum ∧ after = oracle.restarted newQuorum := by
  simp only [clearReportsAndSetQuorum, bind_eq_ok, require_eq_ok]
    at returned
  obtain ⟨-, fits, returned⟩ := returned
  refine ⟨⟨?_, by omega⟩, ?_⟩
  · intro nonempty
    have positive := List.length_pos_of_ne_nil nonempty
    omega
  · unfold restarted
    split at returned
    · rename_i changed
      rw [pure_eq_ok] at returned
      rw [← returned, if_pos changed]
      simp [emit, clearReports]
    · rename_i unchanged
      rw [pure_eq_ok] at returned
      rw [← returned, if_neg unchanged]
      simp only [ne_eq, Decidable.not_not] at unchanged
      simp [clearReports, unchanged]

theorem addMember_ok {sender member : Address} {newQuorum : Nat}
    (returned : oracle.addMember sender member newQuorum = .ok after) :
    member ∉ oracle.members ∧ member ≠ .zero ∧
      QuorumFits (oracle.members ++ [member]) newQuorum ∧
      after = ((oracle.withMembers (oracle.members ++ [member])).restarted
        newQuorum).emit (.addMember member) := by
  simp only [addMember, OracleMembers.push, notZeroAddress, bind_eq_ok,
    require_eq_ok, pure_eq_ok] at returned
  obtain ⟨-, -, -, unknown, members, ⟨-, nonzero, rfl⟩, changed, restarting,
    rfl⟩ := returned
  obtain ⟨fits, rfl⟩ := clearReportsAndSetQuorum_ok restarting
  exact ⟨OracleMembers.indexOf_eq_none.mp unknown, nonzero, fits, rfl⟩

theorem removeMember_ok {sender member : Address} {newQuorum : Nat}
    (returned : oracle.removeMember sender member newQuorum = .ok after) :
    ∃ idx, OracleMembers.indexOf oracle.members member = some idx ∧
      QuorumFits (OracleMembers.removed oracle.members idx) newQuorum ∧
      after = ((oracle.withMembers (OracleMembers.removed oracle.members
        idx)).restarted newQuorum).emit (.removeMember member) := by
  simp only [removeMember, bind_eq_ok] at returned
  obtain ⟨-, -, returned⟩ := returned
  split at returned
  · contradiction
  · rename_i idx found
    simp only [bind_eq_ok, pure_eq_ok] at returned
    obtain ⟨members, deleting, changed, restarting, rfl⟩ := returned
    obtain rfl := OracleMembers.deleteItem_ok deleting
      (OracleMembers.indexOf_lt found)
    obtain ⟨fits, rfl⟩ := clearReportsAndSetQuorum_ok restarting
    exact ⟨idx, found, fits, rfl⟩

theorem setMember_ok {sender member newAddress : Address}
    (returned : oracle.setMember sender member newAddress = .ok after) :
    newAddress ≠ .zero ∧ newAddress ∉ oracle.members ∧
      ∃ idx, OracleMembers.indexOf oracle.members member = some idx ∧
        after = (oracle.withMembers (oracle.members.set idx newAddress)).emit
          (.setMember member newAddress) := by
  simp only [setMember, notZeroAddress, bind_eq_ok, require_eq_ok]
    at returned
  obtain ⟨-, -, -, nonzero, -, unknown, returned⟩ := returned
  split at returned
  · contradiction
  · rename_i idx found
    rw [pure_eq_ok] at returned
    exact ⟨nonzero, OracleMembers.indexOf_eq_none.mp unknown, idx, found,
      returned.symm⟩

theorem setQuorum_ok {sender : Address} {newQuorum : Nat}
    (returned : oracle.setQuorum sender newQuorum = .ok after) :
    QuorumFits oracle.members newQuorum ∧ after = oracle.restarted newQuorum := by
  simp only [setQuorum, bind_eq_ok] at returned
  obtain ⟨-, -, -, -, restarting⟩ := returned
  exact clearReportsAndSetQuorum_ok restarting

theorem startEpoch_frame {epoch : Nat}
    (recent : oracle.lastEpochId ≤ epoch) :
    (oracle.startEpoch epoch).lastEpochId = epoch ∧
      (oracle.startEpoch epoch).members = oracle.members ∧
      (oracle.startEpoch epoch).quorum = oracle.quorum := by
  unfold startEpoch
  split
  · exact ⟨rfl, rfl, rfl⟩
  · rename_i current
    exact ⟨Nat.le_antisymm recent (Nat.le_of_not_lt current), rfl, rfl⟩

theorem startEpoch_of_ge {epoch : Nat} (current : epoch ≤ oracle.lastEpochId) :
    oracle.startEpoch epoch = oracle :=
  if_neg (Nat.not_lt_of_le current)

theorem get_eq_false {positions : BitVec 256} {idx : Nat} :
    ReportsPositions.get positions idx = false ↔
      idx < 256 ∧ idx ∉ Bitmap.members positions := by
  simp only [ReportsPositions.get, decide_eq_false_iff_not,
    Bitmap.and_mask_eq_iff, Classical.not_imp]

/-- The oracle after a report was sent to River. -/
def decided (oracle : Oracle Variant) (report : ConsensusLayerReport) :
    Oracle Variant :=
  { oracle with
    lastEpochId := report.epoch + 1
    reportsPositions := 0
    reportsVariants := []
    effects := oracle.effects ++ [.clearedReporting] ++
      [.setConsensusLayerData report] ++
      [.setLastReportedEpoch (report.epoch + 1)] }

theorem pushReport_eq_ok {E : Type} {river : OracleCalls E}
    {world worldAfter : E} {report : ConsensusLayerReport} :
    pushReport river world oracle report = .ok (after, worldAfter) ↔
      report.epoch + 1 < wordLimit ∧
        river.setConsensusLayerData world report = .ok worldAfter ∧
        after = oracle.decided report := by
  simp only [pushReport, bind_eq_ok, uadd_eq_ok, pure_eq_ok, Prod.mk.injEq]
  constructor
  · rintro ⟨nextEpoch, ⟨fits, rfl⟩, answer, answered, rfl, rfl⟩
    exact ⟨fits, answered, rfl⟩
  · rintro ⟨fits, answered, rfl⟩
    exact ⟨_, ⟨fits, rfl⟩, worldAfter, answered, rfl, rfl⟩

section Votes

variable [DecidableEq Variant] {variant : Variant}

/-- The loop stops at the details of the variant, or finds none. -/
theorem findVariant_eq (variant : Variant) (start : Nat)
    (variants : List (ReportVariantDetails Variant)) :
    (findVariant variant start variants = (none, 0) ∧
      variant ∉ variants.map (·.variant)) ∨
    ∃ idx details,
      findVariant variant start variants =
        (some (start + idx), details.votes) ∧
      variants[idx]? = some details ∧ details.variant = variant := by
  induction variants generalizing start with
  | nil => exact .inl ⟨rfl, by simp⟩
  | cons details rest induction =>
      unfold findVariant
      split
      · rename_i same
        exact .inr ⟨0, details, rfl, rfl, same⟩
      · rename_i other
        rcases induction (start + 1) with
          ⟨none, unknown⟩ | ⟨idx, found, stop, stored, same⟩
        · refine .inl ⟨none, ?_⟩
          rw [List.map_cons, List.mem_cons, not_or]
          exact ⟨Ne.symm other, unknown⟩
        · refine .inr ⟨idx + 1, found, ?_, stored, same⟩
          rw [stop, Nat.add_assoc, Nat.add_comm 1]

/-- The oracle with the votes of `variant` counted up from `votes`. -/
inductive Counted (oracle : Oracle Variant) (variant : Variant)
    (votes : Nat) : Oracle Variant → Prop where
  | first : votes = 0 → Counted oracle variant votes { oracle with
      reportsVariants := oracle.reportsVariants ++ [⟨variant, 1⟩] }
  | again {idx : Nat} {details : ReportVariantDetails Variant} :
      oracle.reportsVariants[idx]? = some details →
      details.variant = variant → details.votes = votes →
      Counted oracle variant votes { oracle with
        reportsVariants := oracle.reportsVariants.set idx
          ⟨variant, votes + 1⟩ }

omit [DecidableEq Variant] in
theorem Counted.frame {votes : Nat}
    (counted : Counted oracle variant votes after) :
    after.members = oracle.members ∧ after.quorum = oracle.quorum ∧
      after.lastEpochId = oracle.lastEpochId ∧
      after.effects = oracle.effects := by
  cases counted with
  | first none => exact ⟨rfl, rfl, rfl, rfl⟩
  | again stored same equal => exact ⟨rfl, rfl, rfl, rfl⟩

theorem stored_of_looked {variantIndex : Option Nat} {variantVotes : Nat}
    (looked : oracle.getReportVariantIndexAndVotes variant =
      (variantIndex, variantVotes))
    (some : variantVotes ≠ 0) :
    ∃ idx details, variantIndex = .some idx ∧
      oracle.reportsVariants[idx]? = .some details ∧
      details.variant = variant ∧ details.votes = variantVotes := by
  unfold getReportVariantIndexAndVotes at looked
  rcases findVariant_eq variant 0 oracle.reportsVariants with
    ⟨stop, -⟩ | ⟨idx, details, stop, stored, same⟩
  · rw [stop] at looked
    exact absurd (congrArg Prod.snd looked).symm some
  · rw [stop, Nat.zero_add] at looked
    cases looked
    exact ⟨idx, details, rfl, stored, same, rfl⟩

theorem countVote_ok {variantIndex : Option Nat} {variantVotes : Nat}
    (looked : oracle.getReportVariantIndexAndVotes variant =
      (variantIndex, variantVotes))
    (returned : oracle.countVote variant variantIndex variantVotes =
      .ok after) : Counted oracle variant variantVotes after := by
  unfold countVote at returned
  split at returned
  · rename_i none
    rw [pure_eq_ok] at returned
    rw [← returned]
    exact .first none
  · rename_i some
    obtain ⟨idx, details, rfl, stored, rfl, rfl⟩ := stored_of_looked looked some
    simp only [bind_eq_ok, fetch_eq_ok, uadd_eq_ok, pure_eq_ok] at returned
    obtain ⟨found, foundStored, votes, ⟨-, rfl⟩, rfl⟩ := returned
    rw [stored] at foundStored
    cases foundStored
    exact .again stored rfl rfl

theorem countVote_returns {variantIndex : Option Nat} {variantVotes : Nat}
    (looked : oracle.getReportVariantIndexAndVotes variant =
      (variantIndex, variantVotes))
    (fits : variantVotes + 1 < wordLimit) :
    ∃ after, oracle.countVote variant variantIndex variantVotes =
      .ok after := by
  unfold countVote
  split
  · exact ⟨_, rfl⟩
  · rename_i some
    obtain ⟨idx, details, rfl, stored, -, rfl⟩ := stored_of_looked looked some
    simp only [bind_eq_ok, fetch_eq_ok, uadd_eq_ok, pure_eq_ok]
    exact ⟨_, details, stored, _, ⟨fits, rfl⟩, rfl⟩

/-- The oracle with a seat marked and its vote reported. -/
def voted (oracle : Oracle Variant) (sender : Address) (memberIndex : Nat)
    (variant : Variant) (report : ConsensusLayerReport) (voteCount : Nat) :
    Oracle Variant :=
  { oracle with
    reportsPositions :=
      ReportsPositions.register oracle.reportsPositions memberIndex
    effects := oracle.effects ++ [.reportedConsensusLayerData sender variant
      report voteCount oracle.quorum] }

/-- How a vote for `report` ends: the report is sent, or the vote counted. -/
inductive Voted {E : Type} (river : OracleCalls E) (world : E)
    (oracle : Oracle Variant) (variant : Variant)
    (report : ConsensusLayerReport) (votes : Nat) :
    Oracle Variant → E → Prop where
  | decided {worldAfter : E} : oracle.quorum ≤ votes + 1 →
      river.setConsensusLayerData world report = .ok worldAfter →
      Voted river world oracle variant report votes (oracle.decided report)
        worldAfter
  | counted {after : Oracle Variant} : votes + 1 < oracle.quorum →
      Counted oracle variant votes after →
      Voted river world oracle variant report votes after world

section Report

variable {E : Type} {reportChecksum : ConsensusLayerReport → Variant}
  {river : OracleCalls E} {world worldAfter : E} {sender : Address}
  {memberIndex : Nat} {report : ConsensusLayerReport}

theorem vote_ok
    (returned : vote reportChecksum river world oracle sender memberIndex
      report = .ok (after, worldAfter)) :
    memberIndex < 256 ∧ memberIndex ∉ Bitmap.members oracle.reportsPositions ∧
      ∃ votes,
        votes = (oracle.getReportVariantIndexAndVotes
          (reportChecksum report)).2 ∧
        Voted river world (oracle.voted sender memberIndex
          (reportChecksum report) report (votes + 1))
          (reportChecksum report) report votes after worldAfter := by
  simp only [vote, bind_eq_ok, require_eq_ok, uadd_eq_ok] at returned
  obtain ⟨-, free, voteCount, ⟨-, rfl⟩, returned⟩ := returned
  obtain ⟨inside, fresh⟩ := get_eq_false.mp free
  refine ⟨inside, fresh, _, rfl, ?_⟩
  split at returned
  · rename_i reached
    obtain ⟨-, answered, rfl⟩ := pushReport_eq_ok.mp returned
    exact .decided reached answered
  · rename_i short
    simp only [bind_eq_ok, pure_eq_ok, Prod.mk.injEq] at returned
    obtain ⟨counted, counting, rfl, rfl⟩ := returned
    exact .counted (Nat.lt_of_not_le short) (countVote_ok rfl counting)

theorem reportConsensusLayerData_eq_ok :
    reportConsensusLayerData reportChecksum river world oracle sender report =
        .ok (after, worldAfter) ↔
      ∃ memberIndex,
        OracleMembers.indexOf oracle.members sender = some memberIndex ∧
        oracle.lastEpochId ≤ report.epoch ∧
        river.isValidEpoch world report.epoch = .ok true ∧
        vote reportChecksum river world (oracle.startEpoch report.epoch)
          sender memberIndex report = .ok (after, worldAfter) := by
  unfold reportConsensusLayerData
  cases found : OracleMembers.indexOf oracle.members sender with
  | none => simp
  | some memberIndex =>
      simp only [bind_eq_ok, require_eq_ok, Nat.not_lt, Option.some.injEq,
        exists_eq_left', exists_const]
      constructor
      · rintro ⟨recent, valid, answered, rfl, voting⟩
        exact ⟨recent, answered, voting⟩
      · rintro ⟨recent, answered, voting⟩
        exact ⟨recent, true, answered, rfl, voting⟩

theorem reportConsensusLayerData_tooOld (known : sender ∈ oracle.members)
    (late : report.epoch < oracle.lastEpochId) :
    reportConsensusLayerData reportChecksum river world oracle sender report =
      .error (.epochTooOld report.epoch oracle.lastEpochId) := by
  have stopped : (require (¬ report.epoch < oracle.lastEpochId)
      (.epochTooOld report.epoch oracle.lastEpochId) : Except Error Unit) =
      .error (.epochTooOld report.epoch oracle.lastEpochId) :=
    if_neg (not_not_intro late)
  unfold reportConsensusLayerData
  rw [OracleMembers.indexOf_of_mem known]
  dsimp only
  rw [stopped]
  rfl

end Report

end Votes

end Oracle

end RiverProtocol
