import Mathlib.Logic.Relation
import RiverProtocol.Allowlist
import RiverProtocol.Lib.Bitmap
import RiverProtocol.River.Model

/-!
# The oracle contract

Members vote for whole reports.  Who has voted is a bit for each member seat,
what was voted for is a counter for each report checksum, and a vote that
reaches the quorum sends the report to River.

The checksum of a report is a parameter, and so is what River answers over a
world `E`.  `effects` is the sequence of emitted events and of the reports
sent to River, in the order in which the contract makes them.
-/

namespace RiverProtocol

open Checked Outcome

/-- `ReportsVariants.ReportVariantDetails` -/
structure ReportVariantDetails (Variant : Type) where
  variant : Variant
  votes : Nat
  deriving DecidableEq, Repr

/-- The events of the oracle, and its call into River. -/
inductive OracleEffect (Variant : Type) where
  | setQuorum (newQuorum : Nat)
  | addMember (member : Address)
  | removeMember (member : Address)
  | setMember (oldAddress newAddress : Address)
  | reportedConsensusLayerData (member : Address) (variant : Variant)
      (report : ConsensusLayerReport) (voteCount quorum : Nat)
  | setLastReportedEpoch (lastReportedEpoch : Nat)
  | clearedReporting
  | setConsensusLayerData (report : ConsensusLayerReport)
  deriving DecidableEq, Repr

/-- What the oracle calls in River. -/
structure OracleCalls (E : Type) where
  isValidEpoch : E → (epoch : Nat) → Except Error Bool
  setConsensusLayerData : E → ConsensusLayerReport → Except Error E

structure Oracle (Variant : Type) where
  administrable : Administrable
  members : List Address
  quorum : Nat
  lastEpochId : Nat
  reportsPositions : BitVec 256
  reportsVariants : List (ReportVariantDetails Variant)
  effects : List (OracleEffect Variant)
  deriving DecidableEq, Repr

namespace ReportsPositions

def get (positions : BitVec 256) (idx : Nat) : Bool :=
  let mask := Bitmap.mask 256 idx
  decide (positions &&& mask = mask)

def register (positions : BitVec 256) (idx : Nat) : BitVec 256 :=
  let mask := Bitmap.mask 256 idx
  positions ||| mask

end ReportsPositions

namespace OracleMembers

/-- `indexOf`, with `none` for -1. -/
def indexOf (members : List Address) (memberAddress : Address) : Option Nat :=
  members.idxOf? memberAddress

def push (members : List Address) (newOracleMember : Address) :
    Except Error (List Address) := do
  notZeroAddress newOracleMember
  return members ++ [newOracleMember]

/-- The last member takes the seat of the deleted one. -/
def deleteItem (members : List Address) (idx : Nat) :
    Except Error (List Address) := do
  let lastIdx ← usub members.length 1
  if lastIdx ≠ idx then do
    let last ← fetch members lastIdx (.panic .outOfBounds)
    require (idx < members.length) (.panic .outOfBounds)
    return (members.set idx last).dropLast
  else
    return members.dropLast

end OracleMembers

namespace Oracle

variable {Variant : Type}

/-- Storage after `initOracleV1` and `initOracleV1_1`. -/
def fresh (admin : Address) : Oracle Variant :=
  { administrable := { admin := admin, pendingAdmin := .zero }
    members := []
    quorum := 0
    lastEpochId := 0
    reportsPositions := 0
    reportsVariants := []
    effects := [.setQuorum 0, .clearedReporting] }

def emit (oracle : Oracle Variant) (effect : OracleEffect Variant) :
    Oracle Variant :=
  { oracle with effects := oracle.effects ++ [effect] }

/-- `_clearReports` -/
def clearReports (oracle : Oracle Variant) : Oracle Variant :=
  { oracle with
    reportsVariants := []
    reportsPositions := 0
    effects := oracle.effects ++ [.clearedReporting] }

/-- `_clearReportsAndSetQuorum` -/
def clearReportsAndSetQuorum (oracle : Oracle Variant)
    (newQuorum previousQuorum : Nat) : Except Error (Oracle Variant) := do
  let memberCount := oracle.members.length
  require (¬ ((newQuorum = 0 ∧ memberCount > 0) ∨ newQuorum > memberCount))
    .invalidArgument
  let cleared := oracle.clearReports
  if newQuorum ≠ previousQuorum then
    return { cleared with quorum := newQuorum }.emit (.setQuorum newQuorum)
  else
    return cleared

def addMember (oracle : Oracle Variant) (sender newOracleMember : Address)
    (newQuorum : Nat) : Except Error (Oracle Variant) := do
  oracle.administrable.onlyAdmin sender
  require (OracleMembers.indexOf oracle.members newOracleMember = none)
    (.addressAlreadyInUse newOracleMember)
  let members ← OracleMembers.push oracle.members newOracleMember
  let previousQuorum := oracle.quorum
  let oracle ← { oracle with members := members }.clearReportsAndSetQuorum
    newQuorum previousQuorum
  return oracle.emit (.addMember newOracleMember)

def removeMember (oracle : Oracle Variant) (sender oracleMember : Address)
    (newQuorum : Nat) : Except Error (Oracle Variant) := do
  oracle.administrable.onlyAdmin sender
  match OracleMembers.indexOf oracle.members oracleMember with
  | none => .error .invalidCall
  | some memberIdx => do
    let members ← OracleMembers.deleteItem oracle.members memberIdx
    let previousQuorum := oracle.quorum
    let oracle ← { oracle with members := members }.clearReportsAndSetQuorum
      newQuorum previousQuorum
    return oracle.emit (.removeMember oracleMember)

/-- `onlyAdminOrMember` -/
def onlyAdminOrMember (oracle : Oracle Variant)
    (sender oracleMember : Address) : Except Error Unit :=
  require (¬ (sender ≠ oracle.administrable.admin ∧ sender ≠ oracleMember))
    (.unauthorized sender)

def setMember (oracle : Oracle Variant)
    (sender oracleMember newAddress : Address) :
    Except Error (Oracle Variant) := do
  oracle.onlyAdminOrMember sender oracleMember
  notZeroAddress newAddress
  require (OracleMembers.indexOf oracle.members newAddress = none)
    (.addressAlreadyInUse newAddress)
  match OracleMembers.indexOf oracle.members oracleMember with
  | none => .error .invalidCall
  | some memberIdx =>
    return { oracle with
      members := oracle.members.set memberIdx newAddress }.emit
        (.setMember oracleMember newAddress)

def setQuorum (oracle : Oracle Variant) (sender : Address)
    (newQuorum : Nat) : Except Error (Oracle Variant) := do
  oracle.administrable.onlyAdmin sender
  let previousQuorum := oracle.quorum
  require (previousQuorum ≠ newQuorum) .invalidArgument
  oracle.clearReportsAndSetQuorum newQuorum previousQuorum

/-- Start a later epoch: the part of `reportConsensusLayerData` between the
epoch checks and the vote. -/
def startEpoch (oracle : Oracle Variant) (epoch : Nat) : Oracle Variant :=
  if epoch > oracle.lastEpochId then
    { oracle.clearReports with lastEpochId := epoch }.emit
      (.setLastReportedEpoch epoch)
  else
    oracle

section Votes

variable [DecidableEq Variant]

/-- The loop of `_getReportVariantIndexAndVotes` from position `idx` on, with
`none` for the index -1. -/
def findVariant (variant : Variant) :
    (idx : Nat) → List (ReportVariantDetails Variant) → Option Nat × Nat
  | _, [] => (none, 0)
  | idx, details :: rest =>
    if details.variant = variant then (some idx, details.votes)
    else findVariant variant (idx + 1) rest

/-- `_getReportVariantIndexAndVotes` -/
def getReportVariantIndexAndVotes (oracle : Oracle Variant)
    (variant : Variant) : Option Nat × Nat :=
  findVariant variant 0 oracle.reportsVariants

/-- The last branches of `reportConsensusLayerData`: a vote that does not
reach the quorum is counted. -/
def countVote (oracle : Oracle Variant) (variant : Variant)
    (variantIndex : Option Nat) (variantVotes : Nat) :
    Except Error (Oracle Variant) :=
  if variantVotes = 0 then
    return { oracle with
      reportsVariants := oracle.reportsVariants ++
        [{ variant := variant, votes := 1 }] }
  else
    match variantIndex with
    | none => .error (.panic .outOfBounds)
    | some idx => do
      let details ← fetch oracle.reportsVariants idx (.panic .outOfBounds)
      let votes ← uadd details.votes 1
      return { oracle with
        reportsVariants := oracle.reportsVariants.set idx
          { details with votes := votes } }

/-- The branch of `reportConsensusLayerData` on a vote that reaches the
quorum. -/
def pushReport {E : Type} (river : OracleCalls E) (world : E)
    (oracle : Oracle Variant) (report : ConsensusLayerReport) :
    Except Error (Oracle Variant × E) := do
  let cleared := oracle.clearReports
  let nextEpoch ← uadd report.epoch 1
  let world ← river.setConsensusLayerData world report
  let pushed := { cleared with lastEpochId := nextEpoch }.emit
    (.setConsensusLayerData report)
  return (pushed.emit (.setLastReportedEpoch nextEpoch), world)

/-- The part of `reportConsensusLayerData` after the epoch checks. -/
def vote {E : Type} (reportChecksum : ConsensusLayerReport → Variant)
    (river : OracleCalls E) (world : E) (oracle : Oracle Variant)
    (sender : Address) (memberIndex : Nat) (report : ConsensusLayerReport) :
    Except Error (Oracle Variant × E) := do
  require (ReportsPositions.get oracle.reportsPositions memberIndex = false)
    (.alreadyReported report.epoch sender)
  let registered := { oracle with
    reportsPositions :=
      ReportsPositions.register oracle.reportsPositions memberIndex }
  let variant := reportChecksum report
  let (variantIndex, variantVotes) :=
    registered.getReportVariantIndexAndVotes variant
  let voteCount ← uadd variantVotes 1
  let reported := registered.emit (.reportedConsensusLayerData sender variant
    report voteCount registered.quorum)
  if voteCount ≥ reported.quorum then
    pushReport river world reported report
  else do
    let counted ← reported.countVote variant variantIndex variantVotes
    return (counted, world)

def reportConsensusLayerData {E : Type}
    (reportChecksum : ConsensusLayerReport → Variant) (river : OracleCalls E)
    (world : E) (oracle : Oracle Variant) (sender : Address)
    (report : ConsensusLayerReport) :
    Except Error (Oracle Variant × E) :=
  match OracleMembers.indexOf oracle.members sender with
  | none => .error (.unauthorized sender)
  | some memberIndex => do
    require (¬ report.epoch < oracle.lastEpochId)
      (.epochTooOld report.epoch oracle.lastEpochId)
    let valid ← river.isValidEpoch world report.epoch
    require (valid = true) (.invalidEpoch report.epoch)
    (oracle.startEpoch report.epoch).vote reportChecksum river world sender
      memberIndex report

end Votes

/-- A successful call of any account that reports nothing. -/
inductive Manage : Oracle Variant → Oracle Variant → Prop where
  | addMember {oracle after : Oracle Variant} {sender member : Address}
      {newQuorum : Nat} : oracle.addMember sender member newQuorum =
        .ok after → Manage oracle after
  | removeMember {oracle after : Oracle Variant} {sender member : Address}
      {newQuorum : Nat} : oracle.removeMember sender member newQuorum =
        .ok after → Manage oracle after
  | setMember {oracle after : Oracle Variant}
      {sender member newAddress : Address} :
      oracle.setMember sender member newAddress = .ok after →
      Manage oracle after
  | setQuorum {oracle after : Oracle Variant} {sender : Address}
      {newQuorum : Nat} : oracle.setQuorum sender newQuorum = .ok after →
      Manage oracle after
  | proposeAdmin {oracle : Oracle Variant} {administrable : Administrable}
      {sender newAdmin : Address} :
      oracle.administrable.proposeAdmin sender newAdmin =
        .ok administrable →
      Manage oracle { oracle with administrable := administrable }
  | acceptAdmin {oracle : Oracle Variant} {administrable : Administrable}
      {sender : Address} :
      oracle.administrable.acceptAdmin sender = .ok administrable →
      Manage oracle { oracle with administrable := administrable }

/-- The oracle takes one successful call, whatever River answers. -/
inductive Step [DecidableEq Variant]
    (reportChecksum : ConsensusLayerReport → Variant) :
    Oracle Variant → Oracle Variant → Prop where
  | manage {oracle after : Oracle Variant} :
      Manage oracle after → Step reportChecksum oracle after
  | reportConsensusLayerData {E : Type} {river : OracleCalls E}
      {world worldAfter : E} {oracle after : Oracle Variant}
      {sender : Address} {report : ConsensusLayerReport} :
      reportConsensusLayerData reportChecksum river world oracle sender
        report = .ok (after, worldAfter) → Step reportChecksum oracle after

/-- States a fresh oracle reaches by any run of calls. -/
def Reachable [DecidableEq Variant]
    (reportChecksum : ConsensusLayerReport → Variant)
    (oracle : Oracle Variant) : Prop :=
  ∃ admin, Relation.ReflTransGen (Step reportChecksum) (fresh admin) oracle

end Oracle

end RiverProtocol
