import RiverProtocol.System.Exits
import RiverProtocol.System.Recipients

/-!
# Slashing containment

A report that sets the containment flag starts a period that the next report
without it ends.  Inside the period no call mints against a deposit, asks for
a redemption or deposits a validator, and a report neither rebalances nor
commits.  A claim does not read the flag itself.  It depends on the flag
through its payments alone: River refuses them inside the period, and so may a
recipient that calls River back.
-/

namespace RiverProtocol

open Checked Outcome

namespace River

/-- What a call of the containment period leaves alone in River: all but the
owners of its shares, the approvals and the settings. -/
structure Frozen (river after : River) : Prop where
  balance : after.balance = river.balance
  balanceToDeposit : after.balanceToDeposit = river.balanceToDeposit
  committedBalance : after.committedBalance = river.committedBalance
  balanceToRedeem : after.balanceToRedeem = river.balanceToRedeem
  depositedValidatorCount :
    after.depositedValidatorCount = river.depositedValidatorCount
  lastConsensusLayerReport :
    after.lastConsensusLayerReport = river.lastConsensusLayerReport
  shares : after.shares = river.shares

section Frozen

variable {river after : River} {allowlist : Allowlist}
  {sender : Address}

theorem Frozen.refl (river : River) : Frozen river river :=
  ⟨rfl, rfl, rfl, rfl, rfl, rfl, rfl⟩

theorem Frozen.trans {last : River} (first : Frozen river after)
    (second : Frozen after last) : Frozen river last where
  balance := second.balance.trans first.balance
  balanceToDeposit := second.balanceToDeposit.trans first.balanceToDeposit
  committedBalance := second.committedBalance.trans first.committedBalance
  balanceToRedeem := second.balanceToRedeem.trans first.balanceToRedeem
  depositedValidatorCount :=
    second.depositedValidatorCount.trans first.depositedValidatorCount
  lastConsensusLayerReport :=
    second.lastConsensusLayerReport.trans first.lastConsensusLayerReport
  shares := second.shares.trans first.shares

theorem Frozen.mode (frozen : Frozen river after)
    (contained : river.slashingContainmentMode = true) :
    after.slashingContainmentMode = true := by
  rw [slashingContainmentMode, frozen.lastConsensusLayerReport]
  exact contained

theorem frozen_of_transferFrom {owner recipient : Address} {value : Nat}
    (returned : river.transferFrom allowlist sender owner recipient value =
      .ok after) : Frozen river after := by
  obtain ⟨-, -, -, rfl | rfl⟩ := transferFrom_ok returned
  · exact ⟨rfl, rfl, rfl, rfl, rfl, rfl, rfl⟩
  · exact ⟨rfl, rfl, rfl, rfl, rfl, rfl, rfl⟩

theorem frozen_of_transfer {recipient : Address} {value : Nat}
    (returned : river.transfer allowlist sender recipient value =
      .ok after) : Frozen river after := by
  obtain ⟨-, rfl⟩ := transfer_ok returned
  exact ⟨rfl, rfl, rfl, rfl, rfl, rfl, rfl⟩

theorem depositFor_refused (contained : river.slashingContainmentMode = true)
    (sender recipient : Address) (value : Nat) :
    river.depositFor allowlist sender recipient value ≠ .ok after := by
  intro returned
  obtain ⟨uncontained, -⟩ := depositFor_ok returned
  rw [contained] at uncontained
  exact Bool.noConfusion uncontained

theorem Call.apply_frozen {call : Call}
    (contained : river.slashingContainmentMode = true)
    (returned : call.apply river allowlist sender = .ok after) :
    Frozen river after := by
  cases Call.apply_effect returned with
  | deposit depositing =>
      exact absurd depositing (depositFor_refused contained _ _ _)
  | transfer moving => exact frozen_of_transfer moving
  | transferFrom moving => exact frozen_of_transferFrom moving
  | approve => exact ⟨rfl, rfl, rfl, rfl, rfl, rfl, rfl⟩
  | configure => exact ⟨rfl, rfl, rfl, rfl, rfl, rfl, rfl⟩

end Frozen

end River

namespace System

variable {deployment : Deployment} {system after : System}

/-- A call inside a containment period: any operation, or a report that keeps
the flag set. -/
inductive ContainedStep (deployment : Deployment) :
    System → System → Prop where
  | operation {system after : System} : Operation deployment system after →
      ContainedStep deployment system after
  | report {system after : System} {funds : ExternalFunds} {timestamp : Nat}
      {sender : Address} {report : ConsensusLayerReport}
      {trace : ReportingTrace} :
      system.setConsensusLayerData deployment funds timestamp sender report =
        .ok (after, trace) → report.slashingContainmentMode = true →
      ContainedStep deployment system after

/-- Any calls inside a containment period. -/
abbrev ContainedRun (deployment : Deployment) : System → System → Prop :=
  Relation.ReflTransGen (ContainedStep deployment)

theorem ContainedStep.step (step : ContainedStep deployment system after) :
    Step deployment system after := by
  cases step with
  | operation operation => exact .operation operation
  | report returned _ => exact .report returned

theorem ContainedRun.reachable (reachable : Reachable deployment system)
    (run : ContainedRun deployment system after) :
    Reachable deployment after :=
  reachable.trans
    (Relation.ReflTransGen.mono (fun _ _ step => step.step) _ _ run)

/-- What an operation of the period leaves alone. -/
structure Frozen (system after : System) : Prop where
  river : River.Frozen system.river after.river
  requests : after.redeemManager.redeemQueue.length =
    system.redeemManager.redeemQueue.length

theorem Frozen.of_river (river : River.Frozen system.river after.river)
    (same : after.redeemManager = system.redeemManager) :
    Frozen system after :=
  ⟨river, by rw [same]⟩

theorem Frozen.trans {last : System} (first : Frozen system after)
    (second : Frozen after last) : Frozen system last :=
  ⟨first.river.trans second.river, second.requests.trans first.requests⟩

theorem Frozen.of_same (river : after.river = system.river)
    (same : after.redeemManager = system.redeemManager) :
    Frozen system after := by
  apply Frozen.of_river _ same
  rw [river]
  exact .refl _

/-- A claim of the period changes nothing outside the redeem manager. -/
theorem claimRedeemRequests_contained {sender : Address}
    {accepts : Address → Bool} {redeemRequestIds withdrawalEventIds : List Nat}
    {skipAlreadyClaimed : Bool} {depth : Nat} {statuses : List ClaimStatus}
    (contained : system.river.slashingContainmentMode = true)
    (returned : system.claimRedeemRequests deployment sender accepts
      redeemRequestIds withdrawalEventIds skipAlreadyClaimed depth =
        .ok (after, statuses)) :
    after.toWorld = system.toWorld ∧
      after.redeemManager.redeemQueue.length =
        system.redeemManager.redeemQueue.length := by
  refine claimRedeemRequests_induction
    (motive := fun after => after.toWorld = system.toWorld ∧
      after.redeemManager.redeemQueue.length =
        system.redeemManager.redeemQueue.length) ?_ ⟨rfl, rfl⟩ returned
  rintro call ⟨_, before⟩ world manager requestId eventId ⟨rfl, length⟩ run
  obtain ⟨claimed, queue, -⟩ := run.moves_start
  refine ⟨?_, by rw [queue, List.length_set, length]⟩
  cases riverCalls_call run.paid with
  | inl same => exact same
  | inr deposited =>
      obtain ⟨river, deposited, -⟩ := deposited
      exact absurd deposited (River.depositFor_refused contained _ _ _)

theorem Operation.frozen
    (contained : system.river.slashingContainmentMode = true)
    (operation : Operation deployment system after) :
    Frozen system after := by
  cases operation with
  | river external returned =>
      exact .of_river (River.Call.apply_frozen contained returned) rfl
  | requestRedeem external returned =>
      simp [System.requestRedeem, contained] at returned
  | requestRedeemFor external returned =>
      simp [System.requestRedeemFor, contained] at returned
  | requestRedeemSelf external returned =>
      simp [System.requestRedeemSelf, contained] at returned
  | claimRedeemRequests external returned =>
      obtain ⟨world, length⟩ :=
        claimRedeemRequests_contained contained returned
      refine ⟨?_, length⟩
      rw [congrArg World.river world]
      exact .refl _
  | wrap external returned =>
      obtain ⟨wlseth, river, minting, rfl⟩ := wrap_ok returned
      obtain ⟨-, transferred, rfl⟩ := WLSETH.mint_ok minting
      exact .of_river (River.frozen_of_transferFrom transferred) rfl
  | unwrap external returned =>
      obtain ⟨wlseth, river, burning, rfl⟩ := unwrap_ok returned
      obtain ⟨-, transferred, -, rfl⟩ := WLSETH.burn_ok burning
      exact .of_river (River.frozen_of_transfer transferred) rfl
  | depositToConsensusLayer external returned =>
      simp [System.depositToConsensusLayer, contained] at returned
  | wrapper external returned => exact .of_same rfl rfl
  | requestValidatorExits external returned => exact .of_same rfl rfl
  | registry external returned => exact .of_same rfl rfl
  | allowlist external returned => exact .of_same rfl rfl
  | consensusLayerWithdrawal amount => exact .of_same rfl rfl

section Report

variable {funds : ExternalFunds} {timestamp : Nat} {sender : Address}
  {report : ConsensusLayerReport} {trace : ReportingTrace}

/-- The stages of a report that sets the flag: nothing is rebalanced and
nothing is committed. -/
structure ContainedReport (deployment : Deployment) (funds : ExternalFunds)
    (timestamp : Nat) (sender : Address) (report : ConsensusLayerReport)
    (system after : System) (trace : ReportingTrace) where
  increase : River.ReportIncrease
  redeemManager : RedeemManager
  pullable : Nat
  registry : OperatorsRegistry
  withdrawn : System
  checking : system.river.checkReport sender timestamp report = .ok increase
  pulling : system.redeemManager.pullExceedingEth pullable =
    .ok (redeemManager, trace.pulledRedeemManagerExceedingEthBuffer)
  withdrawing : System.reportWithdrawToRedeemManager deployment
    { ((system.applied increase report).collected redeemManager
        trace.collected).rewarded trace.rewards with
      registry := registry } = .ok withdrawn
  after_eq : after = { withdrawn with river := withdrawn.river.skimmed }

theorem requestExits_contained {exitingBalance : Nat} {counts : List Nat}
    {allowed : Bool}
    (returned : system.requestExitsBasedOnRedeemDemandAfterRebalancings
      exitingBalance counts allowed true = .ok after) :
    ∃ registry, after = { system with registry := registry } := by
  simp only [requestExitsBasedOnRedeemDemandAfterRebalancings, if_true,
    bind_eq_ok, pure_eq_ok] at returned
  obtain ⟨registry, -, rfl⟩ := returned
  exact ⟨registry, rfl⟩

theorem finishReport_contained {timeElapsed : Nat}
    (returned : system.finishReport deployment timeElapsed true =
      .ok after) :
    ∃ withdrawn,
      system.reportWithdrawToRedeemManager deployment = .ok withdrawn ∧
      after = { withdrawn with river := withdrawn.river.skimmed } := by
  simp only [finishReport, River.commitBalanceToDeposit, if_true, bind_eq_ok,
    pure_eq_ok] at returned
  obtain ⟨withdrawn, withdrawing, skimmed, skimming, committed, rfl,
    rfl⟩ := returned
  rw [River.skimExcessBalanceToRedeem_ok skimming]
  exact ⟨withdrawn, withdrawing, rfl⟩

theorem containedReport_of_returned
    (returned : system.setConsensusLayerData deployment funds timestamp
      sender report = .ok (after, trace))
    (contained : report.slashingContainmentMode = true) :
    Nonempty (ContainedReport deployment funds timestamp sender report system
      after trace) := by
  obtain ⟨prepared, increase, preparing, finishing⟩ :=
    setConsensusLayerData_ok returned
  rw [contained] at finishing
  obtain ⟨withdrawn, withdrawing, after_eq⟩ :=
    finishReport_contained finishing
  simp only [prepareReport, bind_eq_ok, pure_eq_ok, Prod.mk.injEq,
    Prod.exists] at preparing
  obtain ⟨_, checking, before, -, applied, applying, post, -, rewards,
    available, -, pulled, answer, pulling, rewardedRiver, earning, requested,
    requesting, rfl, rfl, rfl⟩ := preparing
  rw [contained] at requesting
  obtain ⟨registry, prepared_eq⟩ := requestExits_contained requesting
  have applied_eq := (applyReport_ok applying).2
  obtain ⟨redeemManager, pulls, pulled_eq⟩ := pullWithin_ok pulling
  have river_eq := (River.earned_ok earning).2
  have exceeding := pulls.exceeding
  rw [prepared_eq, river_eq, pulled_eq, applied_eq] at withdrawing
  rw [applied_eq] at exceeding
  exact ⟨_, redeemManager, _, registry, withdrawn, checking, exceeding,
    withdrawing, after_eq⟩

/-- A report redeems from what was set aside and what has exited, and from
nothing else. -/
structure KeepsDeposits (report : ConsensusLayerReport)
    (trace : ReportingTrace) (system after : System) : Prop where
  exists_sent : ∃ sent,
    sent ≤ system.river.balanceToRedeem +
        (report.validatorsExitedBalance -
          system.river.lastConsensusLayerReport.validatorsExitedBalance) ∧
    after.river.balanceToDeposit + sent =
      system.river.balanceToDeposit +
        (report.validatorsSkimmedBalance -
          system.river.lastConsensusLayerReport.validatorsSkimmedBalance) +
        trace.collected + (system.river.balanceToRedeem +
          (report.validatorsExitedBalance -
            system.river.lastConsensusLayerReport.validatorsExitedBalance)) ∧
    RedeemManager.withdrawnTotal after.redeemManager =
      RedeemManager.withdrawnTotal system.redeemManager + sent
  redeemed : after.river.balanceToRedeem = 0

/-- What a report of the period leaves alone. -/
structure Reported (report : ConsensusLayerReport) (trace : ReportingTrace)
    (system after : System) : Prop where
  committedBalance :
    after.river.committedBalance = system.river.committedBalance
  depositedValidatorCount : after.river.depositedValidatorCount =
    system.river.depositedValidatorCount
  requests : after.redeemManager.redeemQueue.length =
    system.redeemManager.redeemQueue.length
  mode : after.river.slashingContainmentMode = report.slashingContainmentMode
  keeps : KeepsDeposits report trace system after

theorem ContainedReport.reported
    (run : ContainedReport deployment funds timestamp sender report system
      after trace) : Reported report trace system after := by
  obtain ⟨increase, redeemManager, pullable, registry, withdrawn, checking,
    pulling, withdrawing, rfl⟩ := run
  obtain ⟨-, -, pulled⟩ := RedeemManager.pullExceedingEth_ok pulling
  have checked := River.checkReport_ok checking
  have exited : increase.exitedAmountIncrease =
      report.validatorsExitedBalance -
        system.river.lastConsensusLayerReport.validatorsExitedBalance :=
    Nat.eq_sub_of_add_eq' checked.exited
  have skimmed : increase.skimmedAmountIncrease =
      report.validatorsSkimmedBalance -
        system.river.lastConsensusLayerReport.validatorsSkimmedBalance :=
    Nat.eq_sub_of_add_eq' checked.skimmed
  have queue : redeemManager.redeemQueue =
      system.redeemManager.redeemQueue := by
    rw [pulled]
  have events : redeemManager.withdrawalStack =
      system.redeemManager.withdrawalStack := by
    rw [pulled]
  rcases reportWithdrawToRedeemManager_ok withdrawing with
    ⟨rfl, -⟩ | ⟨amount, eth, withdrawal⟩
  · refine ⟨rfl, rfl, congrArg List.length queue, rfl, ⟨0, Nat.zero_le _, ?_,
      ?_⟩, rfl⟩
    · rw [← exited, ← skimmed]
      rfl
    · rw [RedeemManager.withdrawnTotal, RedeemManager.withdrawnTotal]
      change (redeemManager.withdrawalStack.map _).sum = _
      rw [events]
      rfl
  · obtain ⟨-, -, height, -, manager⟩ :=
      RedeemManager.reportWithdraw_ok withdrawal.reported
    have river := congrArg (·.river) withdrawal.after_eq
    dsimp only at river
    have held : eth ≤ system.river.balanceToRedeem +
        increase.exitedAmountIncrease := withdrawal.eth_le
    refine ⟨?_, ?_, ?_, ?_, ⟨eth, exited ▸ held, ?_, ?_⟩, rfl⟩
    · dsimp only
      rw [river]
      rfl
    · dsimp only
      rw [river]
      rfl
    · dsimp only
      rw [manager]
      exact congrArg List.length queue
    · dsimp only
      rw [river]
      rfl
    · dsimp only
      rw [river, ← exited, ← skimmed]
      change system.river.balanceToDeposit + increase.skimmedAmountIncrease +
          trace.collected + (system.river.balanceToRedeem +
            increase.exitedAmountIncrease - eth) + eth = _
      omega
    · dsimp only
      rw [manager, RedeemManager.withdrawnTotal, RedeemManager.withdrawnTotal]
      dsimp only
      rw [List.map_append, List.sum_append, ← events]
      simp [collected, rewarded]

end Report

end System

/-- The same world with the flag of River's last report set to `mode`. -/
def World.withContainment (world : World) (mode : Bool) : World :=
  { world with river := { world.river with
    lastConsensusLayerReport := { world.river.lastConsensusLayerReport with
      slashingContainmentMode := mode } } }

namespace System

variable {deployment : Deployment} {system after : System}

def withContainment (system : System) (mode : Bool) : System :=
  { system with toWorld := system.toWorld.withContainment mode }

section Claims

variable {Storage : Type} {step : System → System → Prop}
  {recipients : Recipients Storage step} {storage : Storage}

/-- What a claim leaves, with the flag set to `mode`. -/
def claimedWithContainment {Status : Type} (mode : Bool) :
    Storage × System × Status → Storage × System × Status :=
  fun result => (result.1, result.2.1.withContainment mode, result.2.2)

/-- A recipient that answers every payment alike in both modes. -/
def AnswersAlike (deployment : Deployment)
    (recipients : Recipients Storage step) (recipient : Address) : Prop :=
  ∀ (storage : Storage) (system : System) (amount : Nat) (mode : Bool),
    pay deployment recipients storage (system.withContainment mode) recipient
        amount =
      (pay deployment recipients storage system recipient amount).map
        fun result => (result.1, result.2.withContainment mode)

theorem answersAlike_silent {accepts : Address → Bool} {recipient : Address}
    (other : recipient ≠ deployment.river) :
    AnswersAlike deployment (Recipients.silent step accepts)
      recipient := by
  intro storage system amount mode
  simp only [pay, if_neg other, Recipients.silent]
  split
  · rfl
  · split <;> rfl

theorem beginClaim_withContainment (system : System) (mode : Bool)
    (call : RedeemManager.ClaimCall) (allowlist : Address)
    (redeemRequestId withdrawalEventId : Nat) :
    (system.withContainment mode).beginClaim call allowlist redeemRequestId
        withdrawalEventId =
      (system.beginClaim call allowlist redeemRequestId withdrawalEventId).map
        fun result => (result.1.withContainment mode, result.2) := by
  simp only [beginClaim, map_bind]
  refine bind_congr_of_ok fun _ _ => ?_
  refine bind_congr_of_ok fun _ _ => ?_
  refine bind_congr_of_ok fun request _ => ?_
  refine bind_congr_of_ok fun _ _ => ?_
  refine bind_congr_of_ok fun _ _ => ?_
  split
  · rw [map_bind]
    rfl
  · simp only [map_bind]
    rfl

theorem claimPair_withContainment {call : RedeemManager.ClaimCall}
    {allowlist : Address} {redeemRequestId withdrawalEventId : Nat}
    (mode : Bool)
    (alike : redeemRequestId < call.redeemRequestCount → ∀ request,
      system.redeemManager.redeemQueue[redeemRequestId]? = some request →
      AnswersAlike deployment recipients request.recipient) :
    claimPair deployment recipients call allowlist storage
        (system.withContainment mode) redeemRequestId withdrawalEventId =
      (claimPair deployment recipients call allowlist storage system
        redeemRequestId withdrawalEventId).map
          (claimedWithContainment mode) := by
  simp only [claimPair, map_bind]
  rw [beginClaim_withContainment]
  cases begins : system.beginClaim call allowlist redeemRequestId
      withdrawalEventId with
  | error failure => rfl
  | ok result =>
      obtain ⟨paid, paying⟩ := result
      cases paying with
      | none => rfl
      | some params =>
          obtain ⟨begun⟩ := beginClaim_begun begins
          obtain ⟨-, -, -, recipient, -⟩ :=
            RedeemManager.claimRedeemRequest_frame begun.claimed
          have answers := alike begun.requestCounted _ begun.requestFound
            storage paid params.ethAmount mode
          rw [← show params.redeemRequest.recipient = begun.request.recipient
            from recipient] at answers
          simp only [Except.map, ok_bind]
          rw [answers]
          cases pay deployment recipients storage paid
              params.redeemRequest.recipient params.ethAmount <;> rfl

theorem claimPairs_withContainment {call : RedeemManager.ClaimCall}
    {allowlist : Address} {pairs : List (Nat × Nat)} (mode : Bool)
    {recipients : Recipients Storage (Step deployment)} {start : System}
    (counted : call.redeemRequestCount ≤
      start.redeemManager.redeemQueue.length)
    (alike : ∀ pair ∈ pairs, ∀ request,
      start.redeemManager.redeemQueue[pair.1]? = some request →
      AnswersAlike deployment recipients request.recipient)
    (grows : start.redeemManager.Grows system.redeemManager) :
    claimPairs deployment recipients call allowlist pairs storage
        (system.withContainment mode) =
      (claimPairs deployment recipients call allowlist pairs storage
        system).map (claimedWithContainment mode) := by
  induction pairs generalizing storage system with
  | nil => rfl
  | cons pair rest induction =>
      obtain ⟨redeemRequestId, withdrawalEventId⟩ := pair
      simp only [claimPairs, map_bind]
      rw [claimPair_withContainment mode]
      · cases claiming : claimPair deployment recipients call allowlist
            storage system redeemRequestId withdrawalEventId with
        | error failure => rfl
        | ok result =>
            obtain ⟨nextStorage, next, status⟩ := result
            have grown := grows.trans (claimPair_grows claiming)
            simp only [Except.map, ok_bind, claimedWithContainment]
            rw [induction
              (fun pair member => alike pair (List.mem_cons_of_mem _ member))
              (grows.trans (claimPair_grows claiming))]
            cases claimPairs deployment recipients call allowlist rest
              nextStorage next <;> rfl
      · -- a request the claim counts was there at its start, under the
        -- recipient it has now
        intro inside request found
        have before := List.getElem?_eq_getElem (inside.trans_le counted)
        obtain ⟨later, foundLater, recipient, -⟩ := grows.owners _ _ before
        obtain rfl := Option.some.inj (foundLater.symm.trans found)
        rw [recipient]
        exact alike _ List.mem_cons_self _ before

/-- A claim whose recipients answer alike in both modes does the same in
both. -/
theorem claimCalling_withContainment
    {recipients : Recipients Storage (Step deployment)}
    {redeemRequestIds withdrawalEventIds : List Nat}
    {skipAlreadyClaimed : Bool} {depth : Nat} (mode : Bool)
    (alike : ∀ id ∈ redeemRequestIds, ∀ request,
      system.redeemManager.redeemQueue[id]? = some request →
      AnswersAlike deployment recipients request.recipient) :
    claimCalling deployment recipients storage (system.withContainment mode)
        redeemRequestIds withdrawalEventIds skipAlreadyClaimed depth =
      (claimCalling deployment recipients storage system redeemRequestIds
        withdrawalEventIds skipAlreadyClaimed depth).map
          (claimedWithContainment mode) := by
  simp only [claimCalling, map_bind]
  refine bind_congr_of_ok fun _ _ => ?_
  apply claimPairs_withContainment mode (toUint32_le _) _ .refl
  intro pair member
  exact alike pair.1 (List.of_mem_zip member).1

/-- A claim whose recipients call nobody back and are not River does the same
in both modes. -/
theorem claimRedeemRequests_withContainment {sender : Address}
    {accepts : Address → Bool} {redeemRequestIds withdrawalEventIds : List Nat}
    {skipAlreadyClaimed : Bool} {depth : Nat} (mode : Bool)
    (others : ∀ id ∈ redeemRequestIds, ∀ request,
      system.redeemManager.redeemQueue[id]? = some request →
      request.recipient ≠ deployment.river) :
    (system.withContainment mode).claimRedeemRequests deployment sender
        accepts redeemRequestIds withdrawalEventIds skipAlreadyClaimed depth =
      (system.claimRedeemRequests deployment sender accepts redeemRequestIds
        withdrawalEventIds skipAlreadyClaimed depth).map
        fun result => (result.1.withContainment mode, result.2) := by
  have same : claimCalling deployment
      (Recipients.silent (Step deployment) accepts) ()
      (system.withContainment mode) redeemRequestIds withdrawalEventIds
      skipAlreadyClaimed depth = _ :=
    claimCalling_withContainment mode fun id member request found =>
      answersAlike_silent (others id member request found)
  rw [claimCalling_silent sender, claimCalling_silent sender] at same
  refine map_injective (fun _ _ equal => (Prod.mk.inj equal).2)
    (same.trans ?_)
  cases system.claimRedeemRequests deployment sender accepts redeemRequestIds
    withdrawalEventIds skipAlreadyClaimed depth <;> rfl

end Claims

/-- What no run of a containment period changes. -/
structure Contained (started reached : System) : Prop where
  mode : reached.river.slashingContainmentMode = true
  requests : reached.redeemManager.redeemQueue.length =
    started.redeemManager.redeemQueue.length
  depositedValidatorCount : reached.river.depositedValidatorCount =
    started.river.depositedValidatorCount
  committedBalance :
    reached.river.committedBalance = started.river.committedBalance

/-- What happens inside the period, one thing at a time: nothing, or a report
that keeps the flag. -/
inductive ContainedMove : System → System → Prop where
  | frozen {system after : System} : Frozen system after →
      ContainedMove system after
  | report {system after : System} {report : ConsensusLayerReport}
      {trace : ReportingTrace} : report.slashingContainmentMode = true →
      Reported report trace system after → ContainedMove system after

theorem ContainedStep.move
    (mode : system.river.slashingContainmentMode = true)
    (step : ContainedStep deployment system after) :
    ContainedMove system after := by
  cases step with
  | operation operation => exact .frozen (operation.frozen mode)
  | report returned contained =>
      obtain ⟨run⟩ := containedReport_of_returned returned contained
      exact .report contained run.reported

theorem Contained.move {started reached : System}
    (held : Contained started reached) (move : ContainedMove reached after) :
    Contained started after := by
  obtain ⟨mode, requests, deposited, committed⟩ := held
  cases move with
  | frozen frozen =>
      obtain ⟨river, queue⟩ := frozen
      exact ⟨river.mode mode, queue.trans requests,
        river.depositedValidatorCount.trans deposited,
        river.committedBalance.trans committed⟩
  | report contained reported =>
      exact ⟨reported.mode.trans contained, reported.requests.trans requests,
        reported.depositedValidatorCount.trans deposited,
        reported.committedBalance.trans committed⟩

theorem ContainedRun.contained {started reached : System}
    (mode : started.river.slashingContainmentMode = true)
    (run : ContainedRun deployment started reached) :
    Contained started reached := by
  induction run with
  | refl => exact ⟨mode, rfl, rfl, rfl⟩
  | tail _ step induction => exact induction.move (step.move induction.mode)

/-- A transaction inside a containment period: a step, or a claim whose
recipients make such steps. -/
inductive ContainedTransaction (deployment : Deployment) :
    System → System → Prop where
  | step {system after : System} : ContainedStep deployment system after →
      ContainedTransaction deployment system after
  | claim {Storage : Type}
      {recipients : Recipients Storage (ContainedStep deployment)}
      {storage storageAfter : Storage} {system after : System}
      {redeemRequestIds withdrawalEventIds : List Nat}
      {skipAlreadyClaimed : Bool} {depth : Nat}
      {statuses : List ClaimStatus} :
      claimCalling deployment recipients storage system redeemRequestIds
        withdrawalEventIds skipAlreadyClaimed depth =
          .ok (storageAfter, after, statuses) →
      ContainedTransaction deployment system after

/-- What has happened inside the period since it started. -/
structure Moved (started reached : System) : Prop where
  contained : Contained started reached
  moves : Relation.ReflTransGen ContainedMove started reached

theorem Moved.tail {started reached : System} (moved : Moved started reached)
    (move : ContainedMove reached after) : Moved started after :=
  ⟨moved.contained.move move, moved.moves.tail move⟩

theorem kept_moved {started : System} :
    Kept deployment (ContainedStep deployment) (Moved started) where
  managed _ _ moved _ length :=
    moved.tail (.frozen ⟨.refl _, length⟩)
  deposited _ _ _ moved deposited :=
    absurd deposited (River.depositFor_refused moved.contained.mode _ _ _)
  stepped _ _ moved step := moved.tail (step.move moved.contained.mode)

theorem moved_of_transactions {started reached : System}
    (mode : started.river.slashingContainmentMode = true)
    (run : Relation.ReflTransGen (ContainedTransaction deployment) started
      reached) : Moved started reached := by
  induction run with
  | refl => exact ⟨⟨mode, rfl, rfl, rfl⟩, .refl⟩
  | tail _ transaction induction =>
      cases transaction with
      | step step => exact induction.tail (step.move induction.contained.mode)
      | claim claimed => exact kept_moved.claimCalling induction claimed

/-- A claim of the period whose recipients make operations only. -/
theorem claimCalling_frozen {Storage : Type}
    {recipients : Recipients Storage (Operation deployment)}
    {storage storageAfter : Storage}
    {redeemRequestIds withdrawalEventIds : List Nat}
    {skipAlreadyClaimed : Bool} {depth : Nat} {statuses : List ClaimStatus}
    (mode : system.river.slashingContainmentMode = true)
    (returned : claimCalling deployment recipients storage system
      redeemRequestIds withdrawalEventIds skipAlreadyClaimed depth =
        .ok (storageAfter, after, statuses)) : Frozen system after := by
  have kept : Kept deployment (Operation deployment) (Frozen system) :=
    { managed := fun _ _ frozen _ length =>
        frozen.trans ⟨.refl _, length⟩
      deposited := fun _ _ _ frozen deposited => absurd deposited
        (River.depositFor_refused (frozen.river.mode mode) _ _ _)
      stepped := fun _ _ frozen operation =>
        frozen.trans (operation.frozen (frozen.river.mode mode)) }
  exact kept.claimCalling (.of_same rfl rfl) returned

/-- From a report that sets the flag until one that does not, no call of any
actor deposits, asks for a redemption, deposits a validator or moves ether
out of the balances, and claims whose recipients answer alike in both modes do
what they would do without the flag. -/
theorem containment_freezes {started reached : System}
    {funds : ExternalFunds} {timestamp : Nat} {sender : Address}
    {report : ConsensusLayerReport} {trace : ReportingTrace}
    (accepted : system.setConsensusLayerData deployment funds timestamp
      sender report = .ok (started, trace))
    (contained : report.slashingContainmentMode = true)
    (run : Relation.ReflTransGen (ContainedTransaction deployment) started
      reached) :
    Reported report trace system started ∧
    Contained started reached ∧
    Relation.ReflTransGen ContainedMove started reached ∧
    (∀ after, Operation deployment reached after → Frozen reached after) ∧
    (∀ (Storage : Type)
      (recipients : Recipients Storage (Operation deployment))
      (storage storageAfter : Storage)
      (redeemRequestIds withdrawalEventIds : List Nat)
      (skipAlreadyClaimed : Bool) (depth : Nat) (after : System)
      (statuses : List ClaimStatus),
      claimCalling deployment recipients storage reached redeemRequestIds
        withdrawalEventIds skipAlreadyClaimed depth =
          .ok (storageAfter, after, statuses) → Frozen reached after) ∧
    (∀ (funds : ExternalFunds) (timestamp : Nat) (sender : Address)
      (report : ConsensusLayerReport) (after : System)
      (trace : ReportingTrace),
      reached.setConsensusLayerData deployment funds timestamp sender report =
        .ok (after, trace) → report.slashingContainmentMode = true →
      Reported report trace reached after) ∧
    (∀ (allowlist : Allowlist) (sender recipient : Address) (value : Nat)
      (river : River),
      reached.river.depositFor allowlist sender recipient value ≠
        .ok river) ∧
    (∀ (sender : Address) (lsETHAmount : Nat) (recipient : Address),
      reached.requestRedeem deployment sender lsETHAmount recipient =
        .error .slashingContainmentModeEnabled ∧
      reached.requestRedeemFor deployment sender lsETHAmount recipient =
        .error .slashingContainmentModeEnabled ∧
      reached.requestRedeemSelf deployment sender lsETHAmount =
        .error .slashingContainmentModeEnabled) ∧
    (∀ (Storage : Type) (recipients : Recipients Storage (Step deployment))
      (storage : Storage) (redeemRequestIds withdrawalEventIds : List Nat)
      (skipAlreadyClaimed : Bool) (depth : Nat),
      (∀ id ∈ redeemRequestIds, ∀ request,
        reached.redeemManager.redeemQueue[id]? = some request →
        AnswersAlike deployment recipients request.recipient) →
      claimCalling deployment recipients storage
          (reached.withContainment false) redeemRequestIds withdrawalEventIds
          skipAlreadyClaimed depth =
        (claimCalling deployment recipients storage reached redeemRequestIds
          withdrawalEventIds skipAlreadyClaimed depth).map
            (claimedWithContainment false)) ∧
    ∀ (sender : Address) (accepts : Address → Bool)
      (redeemRequestIds withdrawalEventIds : List Nat)
      (skipAlreadyClaimed : Bool) (depth : Nat),
      (∀ id ∈ redeemRequestIds, ∀ request,
        reached.redeemManager.redeemQueue[id]? = some request →
        request.recipient ≠ deployment.river) →
      (reached.withContainment false).claimRedeemRequests deployment sender
          accepts redeemRequestIds withdrawalEventIds skipAlreadyClaimed
          depth =
        (reached.claimRedeemRequests deployment sender accepts
          redeemRequestIds withdrawalEventIds skipAlreadyClaimed depth).map
          fun result => (result.1.withContainment false, result.2) := by
  obtain ⟨first⟩ := containedReport_of_returned accepted contained
  have opened := first.reported
  have moved := moved_of_transactions (opened.mode.trans contained) run
  have mode := moved.contained.mode
  have refused : ∀ {α : Type} (rest : Except Error α),
      (require (reached.river.slashingContainmentMode = false)
        Error.slashingContainmentModeEnabled >>= fun _ => rest) =
        .error .slashingContainmentModeEnabled := by
    intro α rest
    rw [mode]
    rfl
  refine ⟨opened, moved.contained, moved.moves,
    fun after operation => operation.frozen mode, ?_, ?_, ?_, ?_, ?_, ?_⟩
  · intro Storage recipients storage storageAfter redeemRequestIds
      withdrawalEventIds skipAlreadyClaimed depth after statuses claimed
    exact claimCalling_frozen mode claimed
  · intro funds timestamp sender report after trace returned set
    obtain ⟨next⟩ := containedReport_of_returned returned set
    exact next.reported
  · intro allowlist sender recipient value river
    exact River.depositFor_refused mode sender recipient value
  · intro sender lsETHAmount recipient
    exact ⟨refused _, refused _, refused _⟩
  · intro Storage recipients storage redeemRequestIds withdrawalEventIds
      skipAlreadyClaimed depth alike
    exact claimCalling_withContainment false alike
  · intro sender accepts redeemRequestIds withdrawalEventIds
      skipAlreadyClaimed depth others
    exact claimRedeemRequests_withContainment false others

section Sample

open RedeemManager (alice)

/-- A deposit and a request of 10 LsETH for this recipient, of which two
reports serve 5 wei. -/
def sampleServed (recipient : Address) : Except Error System := do
  let start := fresh sample
  let river ← (River.Call.deposit (depositSize + 5)).apply start.river
    start.allowlist alice
  let deposited : System := { start with river := river }
  let (requested, _) ← deposited.requestRedeem sample alice (10 * ether)
    recipient
  let (committed, _) ← requested.setConsensusLayerData sample (feesUpTo 0)
    1000000 (.ofNat 11) (quietReport 225 false)
  let (served, _) ← committed.setConsensusLayerData sample (feesUpTo 0)
    1000000 (.ofNat 11) (quietReport 450 true)
  return served

theorem sampleServed_reachable {recipient : Address} {system : System}
    (returned : sampleServed recipient = .ok system) :
    Reachable sample system := by
  simp only [sampleServed, bind_eq_ok, pure_eq_ok, Prod.exists] at returned
  obtain ⟨river, depositing, requested, id, requesting, committed, firstTrace,
    first, served, secondTrace, second, rfl⟩ := returned
  have external : sample.External alice := by decide
  have start : Reachable sample { fresh sample with river := river } :=
    .single (.operation (.river external depositing))
  exact ((start.tail (.operation (.requestRedeem external requesting))).tail
    (.report first)).tail (.report second)

def containingReport : ConsensusLayerReport :=
  { quietReport 675 false with slashingContainmentMode := true }

/-- Recipients that approve someone for what they are paid, and count their
payments. -/
def approvingRecipients : Recipients Nat (Step sample) where
  receive payments system recipient amount :=
    if sample.External recipient then
      match (River.Call.approve (.ofNat 2) amount).apply system.river
        system.allowlist recipient with
      | .ok river => some (payments + 1, { system with river := river })
      | .error _ => none
    else none
  steps := by
    intro payments paymentsAfter system after recipient amount received
    split at received
    · rename_i external
      split at received
      · rename_i river returned
        obtain ⟨-, rfl⟩ := Prod.mk.inj (Option.some.inj received)
        exact .single (.operation (.river external returned))
      · cases received
    · cases received

theorem answersAlike_approvingRecipients {recipient : Address}
    (other : recipient ≠ sample.river) :
    AnswersAlike sample approvingRecipients recipient := by
  intro payments system amount mode
  simp only [pay, if_neg other, approvingRecipients, River.Call.apply,
    River.approve, River.approveFor]
  split
  · rfl
  · split
    · cases notZeroAddress recipient <;>
        cases notZeroAddress (.ofNat 2) <;> rfl
    · rfl

theorem containment_freezes_sample : ∃ system started trace river claimed,
    sampleServed alice = .ok system ∧
      system.setConsensusLayerData sample (feesUpTo 0) 1000000 (.ofNat 11)
        containingReport = .ok (started, trace) ∧
      (River.Call.transfer (.ofNat 2) 1).apply started.river
        started.allowlist alice = .ok river ∧
      Frozen started { started with river := river } ∧
      claimCalling sample approvingRecipients 0 started [0] [0] true 1 =
        .ok claimed ∧ claimed.1 = 1 ∧
      claimCalling sample approvingRecipients 0
        (started.withContainment false) [0] [0] true 1 =
          .ok (claimedWithContainment false claimed) := by
  have checked : returns (sampleServed alice) (fun system =>
      returns (system.setConsensusLayerData sample (feesUpTo 0) 1000000
        (.ofNat 11) containingReport) fun result =>
          returns ((River.Call.transfer (.ofNat 2) 1).apply result.1.river
            result.1.allowlist alice) (fun _ => true) &&
          returns (claimCalling sample approvingRecipients 0 result.1 [0] [0]
            true 1) (fun claimed => claimed.1 = 1) &&
          result.1.redeemManager.redeemQueue[0]?.all
            fun request => request.recipient = alice) = true := by
    decide +kernel
  obtain ⟨system, returned, facts⟩ := returns_iff.mp checked
  obtain ⟨⟨started, trace⟩, accepted, facts⟩ := returns_iff.mp facts
  obtain ⟨facts, paid⟩ := Bool.and_eq_true_iff.mp facts
  obtain ⟨transferring, claiming⟩ := Bool.and_eq_true_iff.mp facts
  obtain ⟨river, transferred, -⟩ := returns_iff.mp transferring
  obtain ⟨claimed, claims, once⟩ := returns_iff.mp claiming
  obtain ⟨-, -, -, frozen, -, -, -, -, alike, -⟩ :=
    containment_freezes accepted rfl .refl
  have external : sample.External alice := by decide
  have same := alike Nat approvingRecipients 0 [0] [0] true 1 (by
    intro id named request found
    obtain rfl := List.mem_singleton.mp named
    rw [found] at paid
    have recipient : request.recipient = alice := of_decide_eq_true paid
    rw [recipient]
    exact answersAlike_approvingRecipients (by decide))
  rw [claims] at same
  exact ⟨system, started, trace, river, claimed, returned, accepted,
    transferred, frozen _ (.river external transferred), claims,
    of_decide_eq_true once, same⟩

/-- A claim that pays River fails inside the period only. -/
theorem containment_stops_claim_to_river : ∃ system started trace,
    Reachable sample system ∧
      system.setConsensusLayerData sample (feesUpTo 0) 1000000 (.ofNat 11)
        containingReport = .ok (started, trace) ∧
      started.claimRedeemRequests sample alice (fun _ => true) [0] [0] true
        1 = .error (.claimRedeemFailed sample.river .reverted) ∧
      ∃ after statuses,
        (started.withContainment false).claimRedeemRequests sample alice
          (fun _ => true) [0] [0] true 1 = .ok (after, statuses) := by
  have checked : returns (sampleServed sample.river) (fun system =>
      returns (system.setConsensusLayerData sample (feesUpTo 0) 1000000
        (.ofNat 11) containingReport) fun result =>
          fails (result.1.claimRedeemRequests sample alice (fun _ => true) [0]
              [0] true 1)
              (.claimRedeemFailed sample.river .reverted) &&
            returns ((result.1.withContainment false).claimRedeemRequests
              sample alice (fun _ => true) [0] [0] true 1)
              fun _ => true) = true := by
    decide +kernel
  obtain ⟨system, returned, facts⟩ := returns_iff.mp checked
  obtain ⟨⟨started, trace⟩, accepted, facts⟩ := returns_iff.mp facts
  obtain ⟨failing, returning⟩ := Bool.and_eq_true_iff.mp facts
  obtain ⟨⟨after, statuses⟩, claimed, -⟩ := returns_iff.mp returning
  exact ⟨system, started, trace, sampleServed_reachable returned, accepted,
    fails_iff.mp failing, after, statuses, claimed⟩

end Sample

end System

end RiverProtocol
