import RiverProtocol.Oracle.Commute
import RiverProtocol.River.Progress
import RiverProtocol.System.Invariants

/-!
# Reports through the oracle

The oracle contract and the system it reports to.  A vote is a step of the
oracle, and the report it decides is a step of the system, so the report River
stores is the last one a quorum agreed on.
-/

namespace RiverProtocol

open Checked Outcome

namespace Oracle

variable {Variant : Type} {oracle after : Oracle Variant}

theorem Manage.pushedReports (managed : Manage oracle after) :
    after.pushedReports = oracle.pushedReports := by
  cases managed with
  | addMember returned =>
      obtain ⟨-, -, -, rfl⟩ := addMember_ok returned
      exact (pushedReports_emit rfl).trans (pushedReports_restarted _)
  | removeMember returned =>
      obtain ⟨idx, -, -, rfl⟩ := removeMember_ok returned
      exact (pushedReports_emit rfl).trans (pushedReports_restarted _)
  | setMember returned =>
      obtain ⟨-, -, idx, -, rfl⟩ := setMember_ok returned
      exact pushedReports_emit rfl
  | setQuorum returned =>
      obtain ⟨-, rfl⟩ := setQuorum_ok returned
      exact pushedReports_restarted _
  | proposeAdmin returned => rfl
  | acceptAdmin returned => rfl

/-- A vote sends its report to River, or nothing. -/
theorem reportConsensusLayerData_pushed [DecidableEq Variant] {E : Type}
    {reportChecksum : ConsensusLayerReport → Variant} {river : OracleCalls E}
    {world worldAfter : E} {sender : Address} {report : ConsensusLayerReport}
    (returned : oracle.reportConsensusLayerData reportChecksum river world
      sender report = .ok (after, worldAfter)) :
    (worldAfter = world ∧ after.pushedReports = oracle.pushedReports) ∨
    (river.setConsensusLayerData world report = .ok worldAfter ∧
      after.pushedReports = oracle.pushedReports ++ [report]) := by
  obtain ⟨memberIndex, -, -, -, voting⟩ :=
    reportConsensusLayerData_eq_ok.mp returned
  obtain ⟨-, -, votes, -, outcome⟩ := vote_ok voting
  have started := oracle.startEpoch_pushedReports report.epoch
  have voted : ((oracle.startEpoch report.epoch).voted sender memberIndex
      (reportChecksum report) report (votes + 1)).pushedReports =
      oracle.pushedReports := pushedReports_voted.trans started
  cases outcome with
  | decided reached answered =>
      refine .inr ⟨answered, ?_⟩
      rw [pushedReports_decided, voted]
  | counted short counting =>
      refine .inl ⟨rfl, ?_⟩
      rw [← voted, pushedReports, counting.frame.2.2.2]
      rfl

end Oracle

namespace System

variable {Variant : Type} [DecidableEq Variant]
  {reportChecksum : ConsensusLayerReport → Variant}
  {deployment : Deployment} {system after : System}

theorem Move.lastConsensusLayerReport (move : Move deployment system after) :
    after.river.lastConsensusLayerReport =
      system.river.lastConsensusLayerReport := by
  cases move with
  | river move => exact move.frame.1
  | _ => rfl

theorem Operation.lastConsensusLayerReport (sound : Sound deployment system)
    (operation : Operation deployment system after) :
    after.river.lastConsensusLayerReport =
      system.river.lastConsensusLayerReport := by
  have moves := operation.moves sound.river.no_approval
  clear operation
  induction moves with
  | refl => rfl
  | tail _ move induction =>
      exact move.lastConsensusLayerReport.trans induction

/-- An accepted report is stored. -/
theorem report_stored {funds : ExternalFunds} {timestamp : Nat}
    {sender : Address} {report : ConsensusLayerReport}
    {trace : ReportingTrace} (sound : Sound deployment system)
    (returned : system.setConsensusLayerData deployment funds timestamp
      sender report = .ok (after, trace)) :
    after.river.lastConsensusLayerReport =
      report.toStoredConsensusLayerReport := by
  obtain ⟨run⟩ := setConsensusLayerData_run sound.registry returned
  have stored : run.prepared.river.lastConsensusLayerReport =
      report.toStoredConsensusLayerReport := by
    rw [run.stages.prepared_eq]
    rfl
  rw [run.after_eq, ← stored]
  rcases reportWithdrawToRedeemManager_ok run.withdrawing with
    ⟨same, -⟩ | ⟨amount, eth, withdrawal⟩
  · rw [same]
    rfl
  · rw [withdrawal.after_eq]
    rfl

/-- River as the oracle at `oracleAddress` sees it. -/
def oracleCalls (deployment : Deployment) (oracleAddress : Address)
    (funds : ExternalFunds) (timestamp : Nat) : OracleCalls System :=
  { isValidEpoch := fun system epoch =>
      system.river.isValidEpoch timestamp epoch
    setConsensusLayerData := fun system report => do
      let (after, _) ← system.setConsensusLayerData deployment funds timestamp
        oracleAddress report
      return after }

/-- A call of the protocol where River takes its reports from the oracle
contract. -/
inductive ReportedStep (reportChecksum : ConsensusLayerReport → Variant)
    (deployment : Deployment) (oracleAddress : Address) :
    Oracle Variant × System → Oracle Variant × System → Prop where
  | operation {oracle : Oracle Variant} {system after : System} :
      Operation deployment system after →
      ReportedStep reportChecksum deployment oracleAddress (oracle, system)
        (oracle, after)
  | manage {oracle oracleAfter : Oracle Variant} {system : System} :
      Oracle.Manage oracle oracleAfter →
      ReportedStep reportChecksum deployment oracleAddress (oracle, system)
        (oracleAfter, system)
  | report {oracle oracleAfter : Oracle Variant} {system after : System}
      {funds : ExternalFunds} {timestamp : Nat} {sender : Address}
      {report : ConsensusLayerReport} :
      oracle.reportConsensusLayerData reportChecksum
        (oracleCalls deployment oracleAddress funds timestamp) system sender
        report = .ok (oracleAfter, after) →
      ReportedStep reportChecksum deployment oracleAddress (oracle, system)
        (oracleAfter, after)

/-- What River stores after the oracle sent `reports`. -/
def lastStored (deployment : Deployment)
    (reports : List ConsensusLayerReport) : StoredConsensusLayerReport :=
  (reports.getLast?.map (·.toStoredConsensusLayerReport)).getD
    (fresh deployment).river.lastConsensusLayerReport

namespace ReportedStep

variable {oracleAddress : Address}
  {before after : Oracle Variant × System}

theorem oracle_steps
    (step : ReportedStep reportChecksum deployment oracleAddress before
      after) :
    Relation.ReflTransGen (Oracle.Step reportChecksum) before.1 after.1 := by
  cases step with
  | operation operation => exact .refl
  | manage managed => exact .single (.manage managed)
  | report returned => exact .single (.reportConsensusLayerData returned)

/-- A report is stored exactly when it is sent. -/
theorem system_steps
    (step : ReportedStep reportChecksum deployment oracleAddress before after)
    (sound : Sound deployment before.2)
    (stored : before.2.river.lastConsensusLayerReport =
      lastStored deployment before.1.pushedReports) :
    Relation.ReflTransGen (Step deployment) before.2 after.2 ∧
      after.2.river.lastConsensusLayerReport =
        lastStored deployment after.1.pushedReports := by
  cases step with
  | operation operation =>
      exact ⟨.single (.operation operation),
        (operation.lastConsensusLayerReport sound).trans stored⟩
  | manage managed =>
      refine ⟨.refl, ?_⟩
      rw [managed.pushedReports]
      exact stored
  | report returned =>
      rcases Oracle.reportConsensusLayerData_pushed returned with
        ⟨rfl, same⟩ | ⟨answered, sent⟩
      · refine ⟨.refl, ?_⟩
        rw [same]
        exact stored
      · simp only [oracleCalls, bind_eq_ok, pure_eq_ok, Prod.exists]
          at answered
        obtain ⟨reported, trace, accepted, rfl⟩ := answered
        refine ⟨.single (.report accepted), ?_⟩
        rw [report_stored sound accepted, sent, lastStored,
          List.getLast?_concat]
        rfl

end ReportedStep

/-- Where River takes its reports from the oracle contract, it stores the
last report of the oracle, and every report of the oracle was agreed on by a
quorum of distinct seats. -/
theorem stored_report_agreed (injective : Function.Injective reportChecksum)
    {oracleAddress admin : Address} {oracle : Oracle Variant}
    {system : System}
    (run : Relation.ReflTransGen
      (ReportedStep reportChecksum deployment oracleAddress)
      (Oracle.fresh admin, fresh deployment) (oracle, system)) :
    Reachable deployment system ∧
    system.river.lastConsensusLayerReport =
      lastStored deployment oracle.pushedReports ∧
    ∀ (before later : List (OracleEffect Variant))
      (report : ConsensusLayerReport),
      oracle.effects = before ++ .setConsensusLayerData report :: later →
      ∃ prior, before = prior ++ [.clearedReporting] ∧
        (Board.replay prior).Agreed report := by
  have both : ∀ reached : Oracle Variant × System,
      Relation.ReflTransGen
        (ReportedStep reportChecksum deployment oracleAddress)
        (Oracle.fresh admin, fresh deployment) reached →
      Relation.ReflTransGen (Oracle.Step reportChecksum)
        (Oracle.fresh admin) reached.1 ∧
      Reachable deployment reached.2 ∧
      reached.2.river.lastConsensusLayerReport =
        lastStored deployment reached.1.pushedReports := by
    intro reached run
    induction run with
    | refl => exact ⟨.refl, .refl, rfl⟩
    | tail _ step induction =>
        obtain ⟨oracleRun, systemRun, stored⟩ := induction
        obtain ⟨moves, storedAfter⟩ :=
          step.system_steps (Sound.of_reachable systemRun) stored
        exact ⟨oracleRun.trans step.oracle_steps, systemRun.trans moves,
          storedAfter⟩
  obtain ⟨oracleRun, systemRun, stored⟩ := both _ run
  have sound := ((Oracle.Sound.fresh admin).run injective oracleRun).1
  refine ⟨systemRun, stored, ?_⟩
  intro before later report split
  exact sound.history.justified before _ later split report rfl

/-- Where the quorum is more than half of the members, the order of their
votes for an epoch does not change what River stores. -/
theorem elected_stored (injective : Function.Injective reportChecksum)
    {oracleAddress : Address} {funds : ExternalFunds}
    {timestamp epoch : Nat} {oracle : Oracle Variant} {order : List Vote}
    {assignment : Address → Option ConsensusLayerReport}
    (sound : Sound deployment system) (clock : timestamp + 1 < wordLimit)
    (nodup : oracle.members.Nodup) (small : oracle.members.length ≤ 256)
    (majority : oracle.members.length < 2 * oracle.quorum)
    (recent : oracle.lastEpochId ≤ epoch)
    (positions : oracle.reportsPositions = 0)
    (variants : oracle.reportsVariants = [])
    (assigned : ∀ member ∈ oracle.members, ∀ report,
      assignment member = some report → report.epoch = epoch)
    (valid : system.river.isValidEpoch timestamp epoch = .ok true)
    (accepts : ∀ report,
      oracle.quorum ≤ supporters oracle.members assignment report →
      ∃ worldAfter, (oracleCalls deployment oracleAddress funds
        timestamp).setConsensusLayerData system report = .ok worldAfter)
    (reordered : order.Perm (assignedVotes oracle.members assignment)) :
    (elected oracle.members assignment oracle.quorum = none →
      (Oracle.castVotes reportChecksum (oracleCalls deployment oracleAddress
        funds timestamp) (oracle, system) order).2 = system) ∧
    ∀ report, elected oracle.members assignment oracle.quorum = some report →
      (Oracle.castVotes reportChecksum (oracleCalls deployment oracleAddress
        funds timestamp) (oracle, system)
        order).2.river.lastConsensusLayerReport =
          report.toStoredConsensusLayerReport := by
  have next : epoch + 1 < wordLimit :=
    (Nat.succ_le_succ (River.isValidEpoch_le valid)).trans_lt clock
  have polling := Oracle.Polling.of_assigned injective nodup small recent
    positions variants assigned next valid accepts reordered
  obtain ⟨-, silent, accepted⟩ :=
    polling.run.elected injective majority reordered
  refine ⟨silent, ?_⟩
  intro report found
  have answered := accepted report found
  generalize Oracle.castVotes reportChecksum (oracleCalls deployment
    oracleAddress funds timestamp) (oracle, system) order = final at answered
  simp only [oracleCalls, bind_eq_ok, pure_eq_ok, Prod.exists] at answered
  obtain ⟨reported, trace, returned, same⟩ := answered
  rw [← same]
  exact report_stored sound returned

end System

end RiverProtocol
