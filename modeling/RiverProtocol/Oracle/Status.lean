import RiverProtocol.Oracle.Agreement

/-!
# Who has voted

A seat has one bit of a 256-bit word.  Past the word the mask is zero: the
seat passes for one that voted, and no vote is taken from it.
-/

namespace RiverProtocol

open Checked Outcome Lists

open Poll (Ballot seats)

namespace Oracle

variable {Variant : Type} {oracle after : Oracle Variant}

def getMemberReportStatus (oracle : Oracle Variant)
    (oracleMember : Address) : Bool :=
  match OracleMembers.indexOf oracle.members oracleMember with
  | none => false
  | some memberIndex =>
    ReportsPositions.get oracle.reportsPositions memberIndex

/-- The seat of the member has voted since the last clear. -/
def HasVoted (oracle : Oracle Variant) (oracleMember : Address) : Prop :=
  ∃ seat, OracleMembers.indexOf oracle.members oracleMember = some seat ∧
    seat ∈ seats oracle.board.ballots

/-- The status of the member is whether its seat has voted, and so is whether
its report for the epoch is one too many. -/
def StatusExact [DecidableEq Variant]
    (reportChecksum : ConsensusLayerReport → Variant)
    (oracle : Oracle Variant) (member : Address) : Prop :=
  (oracle.getMemberReportStatus member = true ↔ oracle.HasVoted member) ∧
  ∀ {E : Type} (river : OracleCalls E) (world : E)
    (report : ConsensusLayerReport),
    oracle.lastEpochId ≤ report.epoch →
    river.isValidEpoch world report.epoch = .ok true →
    river.setConsensusLayerData world report ≠
      .error (.alreadyReported report.epoch member) →
    (reportConsensusLayerData reportChecksum river world oracle member report =
        .error (.alreadyReported report.epoch member) ↔
      (oracle.startEpoch report.epoch).HasVoted member)

/-- A seat within the word is marked by its vote. -/
theorem Marked.get_eq_true_iff {seat : Nat} (marked : Marked oracle) :
    ReportsPositions.get oracle.reportsPositions seat = true ↔
      (seat < 256 → seat ∈ seats oracle.board.ballots) := by
  rw [ReportsPositions.get, decide_eq_true_iff, Bitmap.and_mask_eq_iff,
    marked.registered.positions, List.mem_toFinset]

theorem Marked.hasVoted_lt {member : Address} {seat : Nat}
    (marked : Marked oracle) (voted : oracle.HasVoted member)
    (found : OracleMembers.indexOf oracle.members member = some seat) :
    seat < 256 := by
  obtain ⟨other, seated, cast⟩ := voted
  rw [found, Option.some.injEq] at seated
  subst seated
  rw [← List.mem_toFinset, ← marked.registered.positions] at cast
  exact BitVec.lt_of_getLsbD (Bitmap.mem_members.mp cast)

section Report

variable [DecidableEq Variant]
  {reportChecksum : ConsensusLayerReport → Variant} {E : Type}
  {river : OracleCalls E} {world : E} {member : Address} {seat : Nat}
  {report : ConsensusLayerReport}

omit [DecidableEq Variant] in
theorem ends_pushReport
    (foreign : river.setConsensusLayerData world report ≠
      .error (.alreadyReported report.epoch member)) :
    Ends (fun failure => failure ≠ .alreadyReported report.epoch member)
      (fun _ => True) (pushReport river world oracle report) := by
  refine .bind_returned (ends_uadd (fun _ => nofun) fun _ => trivial)
    fun nextEpoch _ => ?_
  refine .bind_returned ?_ fun _ _ => .pure trivial
  cases answered : river.setConsensusLayerData world report with
  | ok worldAfter => exact trivial
  | error failure =>
      intro same
      exact foreign (answered.trans (congrArg _ same))

omit [DecidableEq Variant] in
theorem ends_countVote {variant : Variant} {variantIndex : Option Nat}
    {variantVotes epoch : Nat} :
    Ends (fun failure => failure ≠ .alreadyReported epoch member)
      (fun _ => True)
      (oracle.countVote variant variantIndex variantVotes) := by
  unfold countVote
  split
  · exact .pure trivial
  · cases variantIndex with
    | none => exact nofun
    | some idx =>
        refine .bind_returned ?_ fun details _ => ?_
        · unfold fetch
          split
          · exact trivial
          · exact nofun
        · exact .bind_returned (ends_uadd (fun _ => nofun) fun _ => trivial)
            fun _ _ => .pure trivial

theorem ends_vote
    (free : ReportsPositions.get oracle.reportsPositions seat = false)
    (foreign : river.setConsensusLayerData world report ≠
      .error (.alreadyReported report.epoch member)) :
    Ends (fun failure => failure ≠ .alreadyReported report.epoch member)
      (fun _ => True)
      (vote reportChecksum river world oracle member seat report) := by
  refine .bind_returned (.require free trivial) fun _ _ => ?_
  refine .bind_returned (ends_uadd (fun _ => nofun) fun _ => trivial)
    fun voteCount _ => ?_
  dsimp only
  split
  · exact ends_pushReport foreign
  · exact .bind_returned ends_countVote fun _ _ => .pure trivial

/-- A report for an epoch that has begun is refused as one too many exactly
where the bit of the seat is set. -/
theorem alreadyReported_iff
    (found : OracleMembers.indexOf oracle.members member = some seat)
    (recent : oracle.lastEpochId ≤ report.epoch)
    (valid : river.isValidEpoch world report.epoch = .ok true)
    (foreign : river.setConsensusLayerData world report ≠
      .error (.alreadyReported report.epoch member)) :
    reportConsensusLayerData reportChecksum river world oracle member report =
        .error (.alreadyReported report.epoch member) ↔
      ReportsPositions.get (oracle.startEpoch report.epoch).reportsPositions
        seat = true := by
  have voting : reportConsensusLayerData reportChecksum river world oracle
      member report = vote reportChecksum river world
        (oracle.startEpoch report.epoch) member seat report := by
    unfold reportConsensusLayerData
    rw [found]
    dsimp only
    rw [require_of (Nat.not_lt.mpr recent), ok_bind, valid, ok_bind,
      require_of rfl, ok_bind]
  rw [voting]
  constructor
  · intro refused
    by_contra free
    rw [Bool.not_eq_true] at free
    exact (ends_vote free foreign).of_error refused rfl
  · intro marked
    rw [vote, marked]
    rfl

end Report

section Exact

variable [DecidableEq Variant]
  {reportChecksum : ConsensusLayerReport → Variant} {member : Address}

omit [DecidableEq Variant] in
theorem hasVoted_iff {seat : Nat}
    (found : OracleMembers.indexOf oracle.members member = some seat) :
    oracle.HasVoted member ↔ seat ∈ seats oracle.board.ballots := by
  unfold HasVoted
  rw [found]
  constructor
  · rintro ⟨other, same, cast⟩
    rw [Option.some.injEq] at same
    exact same ▸ cast
  · intro cast
    exact ⟨seat, rfl, cast⟩

omit [DecidableEq Variant] in
theorem Marked.status_of_lt {seat : Nat} (marked : Marked oracle)
    (found : OracleMembers.indexOf oracle.members member = some seat)
    (inside : seat < 256) :
    ReportsPositions.get oracle.reportsPositions seat = true ↔
      oracle.HasVoted member := by
  rw [marked.get_eq_true_iff, hasVoted_iff found]
  exact forall_prop_of_true inside

theorem Marked.statusExact_of_lt {seat : Nat} (marked : Marked oracle)
    (found : OracleMembers.indexOf oracle.members member = some seat)
    (inside : seat < 256) : oracle.StatusExact reportChecksum member := by
  constructor
  · rw [getMemberReportStatus, found]
    exact marked.status_of_lt found inside
  · intro E river world report recent valid foreign
    rw [alreadyReported_iff found recent valid foreign]
    apply marked.startEpoch.status_of_lt ?_ inside
    rw [(startEpoch_frame recent).2.1]
    exact found

theorem statusExact_of_none
    (unknown : OracleMembers.indexOf oracle.members member = none) :
    oracle.StatusExact reportChecksum member := by
  have absent : ∀ other : Oracle Variant, other.members = oracle.members →
      ¬ other.HasVoted member := by
    intro other same
    rintro ⟨seat, found, -⟩
    rw [same, unknown] at found
    exact nomatch found
  constructor
  · rw [getMemberReportStatus, unknown]
    exact iff_of_false nofun (absent oracle rfl)
  · intro E river world report recent _ _
    rw [reportConsensusLayerData, unknown]
    exact iff_of_false nofun (absent _ (startEpoch_frame recent).2.1)

/-- Past the word a seat passes for one that voted, and never votes. -/
theorem Marked.lt_of_statusExact {seat : Nat} (marked : Marked oracle)
    (exact : oracle.StatusExact reportChecksum member)
    (found : OracleMembers.indexOf oracle.members member = some seat) :
    seat < 256 := by
  by_contra beyond
  have passes : oracle.getMemberReportStatus member = true := by
    rw [getMemberReportStatus, found]
    exact marked.get_eq_true_iff.mpr fun inside => absurd inside beyond
  exact beyond (marked.hasVoted_lt (exact.1.mp passes) found)

theorem Marked.statusExact_iff (marked : Marked oracle) (member : Address) :
    oracle.StatusExact reportChecksum member ↔
      ∀ seat, OracleMembers.indexOf oracle.members member = some seat →
        seat < 256 := by
  constructor
  · intro exact seat found
    exact marked.lt_of_statusExact exact found
  · intro inside
    cases found : OracleMembers.indexOf oracle.members member with
    | none => exact statusExact_of_none found
    | some seat => exact marked.statusExact_of_lt found (inside seat found)

/-- In every reachable state the status of an account is exact if and only if
its seat, if it has one, is within the word; it is exact for all accounts if
and only if there are at most 256 members. -/
theorem status_exact_iff (reachable : Reachable reportChecksum oracle) :
    (∀ member, oracle.StatusExact reportChecksum member ↔
      ∀ seat, OracleMembers.indexOf oracle.members member = some seat →
        seat < 256) ∧
    ((∀ member, oracle.StatusExact reportChecksum member) ↔
      oracle.members.length ≤ 256) := by
  have marked := Marked.of_reachable reachable
  refine ⟨marked.statusExact_iff, ?_, ?_⟩
  · intro exact
    by_contra many
    rw [Nat.not_le] at many
    -- the member in the first seat past the word
    have seated : OracleMembers.indexOf oracle.members oracle.members[256] =
        some 256 := by
      rw [OracleMembers.indexOf_of_mem (List.getElem_mem many),
        marked.seated.nodup.idxOf_getElem]
    exact absurd (marked.lt_of_statusExact (exact _) seated) (by decide)
  · intro few member
    apply (marked.statusExact_iff member).mpr
    intro seat found
    exact (OracleMembers.indexOf_lt found).trans_le few

theorem status_exact_iff_sample : ∃ oracle, sampleRun = .ok oracle ∧
    ∀ member, oracle.StatusExact id member := by
  have checked : returns sampleRun (fun oracle =>
      oracle.members.length ≤ 256) = true := by
    decide +kernel
  obtain ⟨oracle, returned, few⟩ := returns_iff.mp checked
  exact ⟨oracle, returned, (status_exact_iff
    (sampleRun_reachable returned)).2.mpr (of_decide_eq_true few)⟩

end Exact

section Many

theorem clearReportsAndSetQuorum_returns {newQuorum previousQuorum : Nat}
    (fits : ¬ ((newQuorum = 0 ∧ oracle.members.length > 0) ∨
      newQuorum > oracle.members.length)) :
    ∃ after, oracle.clearReportsAndSetQuorum newQuorum previousQuorum =
      .ok after := by
  rw [clearReportsAndSetQuorum]
  dsimp only
  rw [require_of fits, ok_bind]
  split
  · exact ⟨_, rfl⟩
  · exact ⟨_, rfl⟩

/-- An administrator can seat a new member with a quorum of one. -/
theorem addMember_of_admin {member : Address}
    (unknown : member ∉ oracle.members) (named : member ≠ .zero) :
    ∃ after, oracle.addMember oracle.administrable.admin member 1 =
      .ok after := by
  have fits : ¬ ((1 = 0 ∧ (oracle.members ++ [member]).length > 0) ∨
      1 > (oracle.members ++ [member]).length) := by
    rw [List.length_append, List.length_singleton]
    omega
  obtain ⟨cleared, clearing⟩ : ∃ after, ({ oracle with
      members := oracle.members ++ [member] } : Oracle
        Variant).clearReportsAndSetQuorum 1 oracle.quorum = .ok after :=
    clearReportsAndSetQuorum_returns fits
  refine ⟨cleared.emit (.addMember member), ?_⟩
  rw [addMember, Administrable.onlyAdmin, require_of rfl, ok_bind,
    require_of (OracleMembers.indexOf_eq_none.mpr unknown), ok_bind,
    OracleMembers.push, notZeroAddress, require_of named, ok_bind]
  exact congrArg (· >>= fun cleared => pure (cleared.emit (.addMember member)))
    clearing

/-- Any distinct accounts can be the members, before any vote. -/
theorem reachable_of_members [DecidableEq Variant]
    (reportChecksum : ConsensusLayerReport → Variant)
    (members : List Address) (nodup : members.Nodup)
    (named : .zero ∉ members) :
    ∃ oracle, Reachable reportChecksum oracle ∧ oracle.members = members ∧
      oracle.lastEpochId = 0 ∧ oracle.reportsPositions = 0 := by
  induction members using List.reverseRecOn with
  | nil => exact ⟨fresh .zero, ⟨.zero, .refl⟩, rfl, rfl, rfl⟩
  | append_singleton initial last induction =>
      rw [← List.concat_eq_append, List.nodup_concat] at nodup
      rw [List.mem_append, List.mem_singleton, not_or] at named
      obtain ⟨oracle, ⟨admin, run⟩, rfl, epoch, -⟩ :=
        induction nodup.2 named.1
      obtain ⟨after, returned⟩ :=
        addMember_of_admin nodup.1 (Ne.symm named.2)
      have reached := run.tail (.manage (.addMember returned))
      obtain ⟨-, -, -, rfl⟩ := addMember_ok returned
      exact ⟨_, ⟨admin, reached⟩, rfl, epoch, rfl⟩

/-- The accounts 1 to 257. -/
def manyMembers : List Address :=
  (List.range 257).map fun idx => .ofNat (idx + 1)

theorem ofNat_succ_inj {first second : Nat} (small : first < 257)
    (otherSmall : second < 257)
    (same : Address.ofNat (first + 1) = Address.ofNat (second + 1)) :
    first = second := by
  have values := congrArg Fin.val same
  simp only [Address.ofNat] at values
  omega

theorem manyMembers_nodup : manyMembers.Nodup := by
  apply List.nodup_range.map_on
  intro first firstMember second secondMember same
  exact ofNat_succ_inj (List.mem_range.mp firstMember)
    (List.mem_range.mp secondMember) same

theorem zero_not_mem_manyMembers : .zero ∉ manyMembers := by
  intro member
  obtain ⟨idx, inside, same⟩ := List.mem_map.mp member
  have values := congrArg Fin.val same
  simp only [Address.ofNat, Address.zero] at values
  have small := List.mem_range.mp inside
  omega

/-- With 257 members the last one's first report is one too many. -/
theorem last_member_cannot_report :
    ∃ oracle : Oracle ConsensusLayerReport, Reachable id oracle ∧
      oracle.members.length = 257 ∧
      oracle.members[256]? = some (.ofNat 257) ∧
      oracle.getMemberReportStatus (.ofNat 257) = true ∧
      ¬ oracle.HasVoted (.ofNat 257) ∧
      oracle.reportConsensusLayerData id acceptingRiver () (.ofNat 257)
        sampleReport = .error (.alreadyReported 225 (.ofNat 257)) := by
  obtain ⟨oracle, reachable, members, epoch, positions⟩ :=
    reachable_of_members id manyMembers manyMembers_nodup
      zero_not_mem_manyMembers
  have marked := Marked.of_reachable reachable
  have last : manyMembers[256]? = some (.ofNat 257) := by
    rw [manyMembers, List.getElem?_map, List.getElem?_range (by decide)]
    rfl
  have found : OracleMembers.indexOf oracle.members (.ofNat 257) =
      some 256 := by
    obtain ⟨inside, at_last⟩ := List.getElem?_eq_some_iff.mp last
    rw [members, ← at_last, OracleMembers.indexOf_of_mem
      (List.getElem_mem inside), manyMembers_nodup.idxOf_getElem]
  have passes : ∀ other : Oracle ConsensusLayerReport, other.Marked →
      ReportsPositions.get other.reportsPositions 256 = true := by
    intro other otherMarked
    exact otherMarked.get_eq_true_iff.mpr nofun
  refine ⟨oracle, reachable, ?_, members ▸ last, ?_, ?_, ?_⟩
  · rw [members, manyMembers, List.length_map, List.length_range]
  · rw [getMemberReportStatus, found]
    exact passes oracle marked
  · intro voted
    exact absurd (marked.hasVoted_lt voted found) (by decide)
  · apply (alreadyReported_iff found ?_ rfl ?_).mpr
    · exact passes _ marked.startEpoch
    · rw [epoch]
      exact Nat.zero_le _
    · intro refused
      cases refused


end Many

end Oracle

end RiverProtocol
