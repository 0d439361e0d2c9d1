import RiverProtocol.System.Calls

/-!
# The contracts that hold ether for River

The execution layer fee recipient and the coverage fund are pulled from in a
report.  Together with them, River, the redeem manager and the withdraw
contract account for all ether that entered the protocol: what they hold, what
went to validators and what claims paid adds up to what was received.

River may be pointed to other recipients and funds, so they are kept by
address.
-/

namespace RiverProtocol

open Checked Outcome Balances LibAllowlistMasks

namespace LibAllowlistMasks

def donateMask : Nat := 1 <<< 1

end LibAllowlistMasks

/-- The reverts of the two contracts. -/
inductive FundError where
  | emptyDonation
  | invalidCall
  | reverted (reason : Error)
  deriving DecidableEq, Repr

/-- A revert of a contract that is called. -/
def FundError.lift {α : Type} : Except Error α → Except FundError α
  | .ok value => .ok value
  | .error reason => .error (.reverted reason)

structure ELFeeRecipient where
  balance : Nat
  deriving DecidableEq, Repr

namespace ELFeeRecipient

/-- `pullELFees`, with the ether sent to River. -/
def pullELFees (recipient : ELFeeRecipient) (river sender : Address)
    (maxAmount : Nat) : Except Error (ELFeeRecipient × Nat) := do
  require (sender = river) (.unauthorized sender)
  let amount := LibUint256.min maxAmount recipient.balance
  return ({ balance := recipient.balance - amount }, amount)

/-- `receive` -/
def receive (recipient : ELFeeRecipient) (value : Nat) : ELFeeRecipient :=
  { balance := recipient.balance + value }

end ELFeeRecipient

/-- `donated` and `pulled` are the ether ever donated and sent to River. -/
structure CoverageFund where
  balance : Nat
  balanceForCoverage : Nat
  donated : Nat
  pulled : Nat
  deriving DecidableEq, Repr

namespace CoverageFund

def fresh : CoverageFund :=
  { balance := 0, balanceForCoverage := 0, donated := 0, pulled := 0 }

/-- `pullCoverageFunds`, with the ether sent to River. -/
def pullCoverageFunds (fund : CoverageFund) (river sender : Address)
    (maxAmount : Nat) : Except Error (CoverageFund × Nat) := do
  require (sender = river) (.unauthorized sender)
  let amount := LibUint256.min maxAmount fund.balanceForCoverage
  if amount > 0 then do
    let balanceForCoverage ← usub fund.balanceForCoverage amount
    require (amount ≤ fund.balance) (.callFailed .insufficientBalance)
    return ({ fund with
      balance := fund.balance - amount
      balanceForCoverage := balanceForCoverage
      pulled := fund.pulled + amount }, amount)
  else
    return (fund, 0)

/-- `donate` -/
def donate (fund : CoverageFund) (allowlist : Allowlist) (sender : Address)
    (value : Nat) : Except FundError CoverageFund := do
  require (value ≠ 0) .emptyDonation
  let balanceForCoverage ← FundError.lift (uadd fund.balanceForCoverage value)
  FundError.lift (allowlist.onlyAllowed sender donateMask)
  return { fund with
    balance := fund.balance + value
    balanceForCoverage := balanceForCoverage
    donated := fund.donated + value }

/-- `receive` and `fallback` refuse any call. -/
def receive : Except FundError CoverageFund := .error .invalidCall

end CoverageFund

structure FundedSystem extends System where
  elFeeRecipients : Address → ELFeeRecipient
  coverageFunds : Address → CoverageFund

namespace FundedSystem

def fresh (deployment : Deployment) : FundedSystem :=
  { System.fresh deployment with
    elFeeRecipients := fun _ => { balance := 0 }
    coverageFunds := fun _ => .fresh }

variable (deployment : Deployment) (funded : FundedSystem)

/-- The recipient River points to. -/
def elFeeRecipient : ELFeeRecipient :=
  funded.elFeeRecipients funded.river.config.elFeeRecipient

/-- The fund River points to. -/
def coverageFund : CoverageFund :=
  funded.coverageFunds funded.river.config.coverageFund

end FundedSystem

/-- What a call sends, nothing when it reverts. -/
def sentBy {α : Type} : Except Error (α × Nat) → Nat
  | .ok (_, sent) => sent
  | .error _ => 0

theorem ELFeeRecipient.sentBy_pullELFees (recipient : ELFeeRecipient)
    (river : Address) (max : Nat) :
    sentBy (recipient.pullELFees river river max) =
      min max recipient.balance := by
  simp [pullELFees, sentBy, LibUint256.min_eq, require, bind, Except.bind,
    pure, Except.pure]

theorem CoverageFund.sentBy_pullCoverageFunds_le (fund : CoverageFund)
    (river : Address) (max : Nat) :
    sentBy (fund.pullCoverageFunds river river max) ≤
      min max fund.balanceForCoverage := by
  cases pulled : fund.pullCoverageFunds river river max with
  | error reason => exact Nat.zero_le _
  | ok result =>
      obtain ⟨after, sent⟩ := result
      simp only [pullCoverageFunds, bind_eq_ok, LibUint256.min_eq] at pulled
      obtain ⟨-, -, pulled⟩ := pulled
      split at pulled
      · simp only [bind_eq_ok, pure_eq_ok, Prod.mk.injEq] at pulled
        obtain ⟨-, -, -, -, -, rfl⟩ := pulled
        exact le_rfl
      · simp only [pure_eq_ok, Prod.mk.injEq] at pulled
        obtain ⟨-, rfl⟩ := pulled
        exact Nat.zero_le _

/-- The funds as a report uses them. -/
def FundedSystem.funds (deployment : Deployment) (funded : FundedSystem) :
    ExternalFunds :=
  { pullELFees := fun max => sentBy
      (funded.elFeeRecipient.pullELFees deployment.river deployment.river max)
    pullCoverageFunds := fun max => sentBy
      (funded.coverageFund.pullCoverageFunds deployment.river deployment.river
        max)
    pullELFees_le := by
      intro max
      rw [ELFeeRecipient.sentBy_pullELFees]
      exact Nat.min_le_left _ _
    pullCoverageFunds_le := by
      intro max
      exact (CoverageFund.sentBy_pullCoverageFunds_le _ _ _).trans
        (Nat.min_le_left _ _) }

namespace FundedSystem

variable (deployment : Deployment) (funded : FundedSystem)

/-- `setConsensusLayerData`, with the recipient and the fund River points to
after what they sent. -/
def setConsensusLayerData (timestamp : Nat) (sender : Address)
    (report : ConsensusLayerReport) :
    Except Error (FundedSystem × ReportingTrace) := do
  let (system, trace) ← funded.toSystem.setConsensusLayerData deployment
    (funded.funds deployment) timestamp sender report
  let (recipient, _) ← funded.elFeeRecipient.pullELFees deployment.river
    deployment.river trace.pulledELFees
  let (fund, _) ← funded.coverageFund.pullCoverageFunds deployment.river
    deployment.river trace.pulledCoverageFunds
  return ({ system with
    elFeeRecipients := Function.update funded.elFeeRecipients
      funded.river.config.elFeeRecipient recipient
    coverageFunds := Function.update funded.coverageFunds
      funded.river.config.coverageFund fund }, trace)

/-- The ether attached to a call. -/
def callValue : System.Call → Nat
  | .river (.deposit value) => value
  | .river (.depositAndTransfer _ value) => value
  | _ => 0

/-- A step, with the ether that enters the protocol by it. -/
inductive Step (deployment : Deployment) :
    FundedSystem → Nat → FundedSystem → Prop where
  | call {funded : FundedSystem} {after : System} {sender : Address}
      {call : System.Call} : deployment.External sender →
      call.apply deployment funded.toSystem sender = .ok after →
      Step deployment funded (callValue call)
        { funded with toSystem := after }
  | consensusLayerWithdrawal {funded : FundedSystem} (amount : Nat) :
      Step deployment funded amount { funded with
        withdraw := { funded.withdraw with
          balance := funded.withdraw.balance + amount } }
  | elFees {funded : FundedSystem} (account : Address) (amount : Nat) :
      Step deployment funded amount { funded with
        elFeeRecipients := Function.update funded.elFeeRecipients account
          ((funded.elFeeRecipients account).receive amount) }
  | donate {funded : FundedSystem} {sender account : Address} {value : Nat}
      {fund : CoverageFund} :
      (funded.coverageFunds account).donate funded.allowlist sender value =
        .ok fund →
      Step deployment funded value { funded with
        coverageFunds := Function.update funded.coverageFunds account fund }
  | forced {funded : FundedSystem} (account : Address) (amount : Nat) :
      -- ether that reaches a coverage fund without a call
      Step deployment funded amount { funded with
        coverageFunds := Function.update funded.coverageFunds account
          { funded.coverageFunds account with
            balance := (funded.coverageFunds account).balance + amount } }
  | report {funded after : FundedSystem} {timestamp : Nat} {sender : Address}
      {report : ConsensusLayerReport} {trace : ReportingTrace} :
      funded.setConsensusLayerData deployment timestamp sender report =
        .ok (after, trace) → Step deployment funded 0 after

/-- A run from the fresh system, with the ether received in it. -/
inductive Run (deployment : Deployment) : FundedSystem → Nat → Prop where
  | start : Run deployment (fresh deployment) 0
  | step {funded after : FundedSystem} {received amount : Nat} :
      Run deployment funded received → Step deployment funded amount after →
      Run deployment after (received + amount)

end FundedSystem

namespace River

variable {river after : River} {allowlist : Allowlist}
  {sender owner recipient : Address} {value : Nat}

/-- The ether River holds, and what it sent to validators. -/
def ether (river : River) : Nat :=
  river.balance + depositSize * river.depositedValidatorCount

theorem transferFrom_ether
    (returned : river.transferFrom allowlist sender owner recipient value =
      .ok after) : after.ether = river.ether := by
  obtain ⟨-, -, -, rfl | rfl⟩ := transferFrom_ok returned
  · rfl
  · rfl

theorem transfer_ether
    (returned : river.transfer allowlist sender recipient value = .ok after) :
    after.ether = river.ether := by
  rw [(transfer_ok returned).2]
  rfl

theorem approveFor_ether
    (returned : river.approveFor owner sender value = .ok after) :
    after.ether = river.ether := by
  rw [approveFor_ok returned]
  rfl

theorem setConfig_ether {sanitized : Except Error Unit} {config : RiverConfig}
    (returned : river.setConfig sender sanitized config = .ok after) :
    after.ether = river.ether := by
  simp only [setConfig, bind_eq_ok, pure_eq_ok] at returned
  obtain ⟨-, -, -, -, rfl⟩ := returned
  rfl

theorem depositFor_ether
    (returned : river.depositFor allowlist sender recipient value =
      .ok after) : after.ether = river.ether + value := by
  obtain ⟨-, -, rfl⟩ := depositFor_ok returned
  show river.balance + value + _ = _
  rw [ether, Nat.add_right_comm]
  rfl

/-- A call leaves the ether it brings. -/
theorem Call.apply_ether {call : Call}
    (returned : call.apply river allowlist sender = .ok after) :
    after.ether = river.ether + FundedSystem.callValue (.river call) := by
  cases call with
  | deposit value => exact depositFor_ether returned
  | depositAndTransfer recipient value =>
      simp only [Call.apply, River.depositAndTransfer, bind_eq_ok] at returned
      obtain ⟨-, -, depositing⟩ := returned
      exact depositFor_ether depositing
  | transfer recipient value => exact transfer_ether returned
  | transferFrom owner recipient value => exact transferFrom_ether returned
  | approve spender value => exact approveFor_ether returned
  | increaseAllowance spender additionalValue =>
      simp only [Call.apply, River.increaseAllowance, bind_eq_ok] at returned
      obtain ⟨value, -, approving⟩ := returned
      exact approveFor_ether approving
  | decreaseAllowance spender subtractableValue =>
      simp only [Call.apply, River.decreaseAllowance, bind_eq_ok] at returned
      obtain ⟨value, -, approving⟩ := returned
      exact approveFor_ether approving
  | proposeAdmin newAdmin =>
      simp only [Call.apply, bind_eq_ok, pure_eq_ok] at returned
      obtain ⟨administrable, -, rfl⟩ := returned
      rfl
  | acceptAdmin =>
      simp only [Call.apply, bind_eq_ok, pure_eq_ok] at returned
      obtain ⟨administrable, -, rfl⟩ := returned
      rfl
  | setGlobalFee newFee =>
      simp only [Call.apply, River.setGlobalFee, bind_eq_ok, pure_eq_ok]
        at returned
      obtain ⟨-, -, fee, -, rfl⟩ := returned
      rfl
  | setDailyCommittableLimits dcl => exact setConfig_ether returned
  | setKeeper keeper => exact setConfig_ether returned
  | setAllowlist newAllowlist => exact setConfig_ether returned
  | setCollector newCollector => exact setConfig_ether returned
  | setELFeeRecipient newELFeeRecipient => exact setConfig_ether returned
  | setCoverageFund newCoverageFund => exact setConfig_ether returned
  | setMetadataURI metadataURI => exact setConfig_ether returned
  | setOracle oracle => exact setConfig_ether returned
  | setCLSpec newValue => exact setConfig_ether returned
  | setReportBounds newValue => exact setConfig_ether returned

end River

/-- The ether a transfer takes out of the protocol. -/
def EthTransfer.away (river : Address) : EthTransfer → Nat
  | .claimPayment recipient amount => if recipient = river then 0 else amount
  | .exceedingPull _ => 0

/-- The ether claims paid to accounts other than River. -/
def paidAway (river : Address) (transfers : List EthTransfer) : Nat :=
  (transfers.map (EthTransfer.away river)).sum

theorem paidAway_concat (river : Address) (transfers : List EthTransfer)
    (last : EthTransfer) :
    paidAway river (transfers ++ [last]) =
      paidAway river transfers + last.away river := by
  simp [paidAway]

namespace System

variable {deployment : Deployment} {system after : System}
  {sender recipient : Address}

/-- The ether of River, the redeem manager and the withdraw contract, what
went to validators and what claims paid. -/
def held (deployment : Deployment) (system : System) : Nat :=
  system.river.ether + system.redeemManager.balance +
    system.withdraw.balance +
    paidAway deployment.river system.redeemManager.transfers

theorem requestRedeemBy_held {initiator : Address} {lsETHAmount id : Nat}
    (returned : system.requestRedeemBy deployment sender lsETHAmount recipient
      initiator = .ok (after, id)) :
    after.held deployment = system.held deployment := by
  obtain ⟨river, manager, transferred, requested, rfl⟩ :=
    requestRedeemBy_ok returned
  obtain ⟨-, -, -, -, height, maximum, -, -, -, rfl⟩ :=
    RedeemManager.requestRedeem_eq_ok.mp requested
  simp only [held, River.transferFrom_ether transferred]

/-- A payment to River stays in the protocol. -/
theorem riverCalls_held {accepts : Address → Bool} {amount : Nat}
    {world worldAfter : World}
    (answered : (riverCalls deployment sender accepts).call world recipient
      amount = some worldAfter) :
    worldAfter.river.ether + (EthTransfer.claimPayment recipient amount).away
        deployment.river = world.river.ether + amount ∧
      worldAfter.withdraw = world.withdraw := by
  simp only [riverCalls] at answered
  split at answered
  · rename_i self
    split at answered
    · rename_i river deposited
      obtain rfl := Option.some.inj answered
      rw [EthTransfer.away, if_pos self]
      exact ⟨River.depositFor_ether deposited, rfl⟩
    · contradiction
  · rename_i other
    split at answered
    · contradiction
    · split at answered
      · obtain rfl := Option.some.inj answered
        rw [EthTransfer.away, if_neg other]
        exact ⟨rfl, rfl⟩
      · contradiction

theorem claimRedeemRequests_held {accepts : Address → Bool}
    {redeemRequestIds withdrawalEventIds : List Nat}
    {skipAlreadyClaimed : Bool} {depth : Nat} {statuses : List ClaimStatus}
    (returned : system.claimRedeemRequests deployment sender accepts
      redeemRequestIds withdrawalEventIds skipAlreadyClaimed depth =
        .ok (after, statuses)) :
    after.held deployment = system.held deployment := by
  refine claimRedeemRequests_induction
    (motive := fun after => after.held deployment = system.held deployment)
    ?_ rfl returned
  intro call before world manager requestId eventId same run
  rw [← same]
  obtain ⟨-, -, -, -, -, -, -, balance, transfers⟩ :=
    RedeemManager.claimRedeemRequest_frame run.claimed
  obtain ⟨moved, withdraw⟩ := riverCalls_held run.paid
  have left := congrArg RedeemManager.balance run.result
  have enough := run.enough
  simp only [held]
  rw [withdraw, run.transfers_eq, transfers, paidAway_concat]
  simp only [RedeemManager.emit] at left
  rw [balance] at left enough
  omega

theorem Call.apply_held {call : Call}
    (returned : call.apply deployment system sender = .ok after) :
    after.held deployment =
      system.held deployment + FundedSystem.callValue call := by
  cases call with
  | river call =>
      simp only [Call.apply, bind_eq_ok, pure_eq_ok] at returned
      obtain ⟨river, returned, rfl⟩ := returned
      have moved := River.Call.apply_ether returned
      simp only [held]
      omega
  | requestRedeem lsETHAmount recipient =>
      simp only [Call.apply, bind_eq_ok, pure_eq_ok, Prod.exists] at returned
      obtain ⟨final, id, returned, rfl⟩ := returned
      obtain ⟨river, rfl, -, requested⟩ := requestRedeem_ok returned
      rw [requestRedeemBy_held requested]
      simp only [held, River.ether, River.moved, FundedSystem.callValue,
        Nat.add_zero]
  | requestRedeemFor lsETHAmount recipient =>
      simp only [Call.apply, bind_eq_ok, pure_eq_ok, Prod.exists] at returned
      obtain ⟨final, id, returned, rfl⟩ := returned
      rw [requestRedeemBy_held (requestRedeemFor_ok returned)]
      simp only [FundedSystem.callValue, Nat.add_zero]
  | requestRedeemSelf lsETHAmount =>
      simp only [Call.apply, bind_eq_ok, pure_eq_ok, Prod.exists] at returned
      obtain ⟨final, id, returned, rfl⟩ := returned
      rw [requestRedeemBy_held (requestRedeemSelf_ok returned)]
      simp only [FundedSystem.callValue, Nat.add_zero]
  | claimRedeemRequests accepts redeemRequestIds withdrawalEventIds
      skipAlreadyClaimed depth =>
      simp only [Call.apply, bind_eq_ok, pure_eq_ok, Prod.exists] at returned
      obtain ⟨final, statuses, returned, rfl⟩ := returned
      rw [claimRedeemRequests_held returned]
      simp only [FundedSystem.callValue, Nat.add_zero]
  | wrap recipient shares =>
      obtain ⟨wlseth, river, minting, rfl⟩ := wrap_ok returned
      obtain ⟨-, transferred, rfl⟩ := WLSETH.mint_ok minting
      have same := River.transferFrom_ether transferred
      simp only [held, FundedSystem.callValue]
      omega
  | unwrap recipient shares =>
      obtain ⟨wlseth, river, burning, rfl⟩ := unwrap_ok returned
      obtain ⟨-, transferred, -, rfl⟩ := WLSETH.burn_ok burning
      have same := River.transfer_ether transferred
      simp only [held, FundedSystem.callValue]
      omega
  | wrapper call =>
      simp only [Call.apply, bind_eq_ok, pure_eq_ok] at returned
      obtain ⟨wlseth, returned, rfl⟩ := returned
      rfl
  | depositToConsensusLayer contract allocations depositRoot =>
      obtain ⟨registry, validators, -, -, enough, rfl⟩ :=
        depositToConsensusLayer_moves returned
      simp only [held, River.ether, River.funded, FundedSystem.callValue,
        Nat.mul_add]
      omega
  | requestValidatorExits allocations =>
      simp only [Call.apply, bind_eq_ok, pure_eq_ok] at returned
      obtain ⟨registry, returned, rfl⟩ := returned
      rfl
  | registry blockNumber call =>
      simp only [Call.apply, bind_eq_ok, pure_eq_ok] at returned
      obtain ⟨registry, returned, rfl⟩ := returned
      rfl
  | allowlist holder call =>
      simp only [Call.apply, bind_eq_ok, pure_eq_ok] at returned
      obtain ⟨allowlist, returned, rfl⟩ := returned
      rfl

/-- The coverage a report pulls is nothing, or what the fund sent. -/
theorem pullWithin_coverage {funds : ExternalFunds}
    {rewards available : Nat} {trace : ReportingTrace}
    (returned : system.pullWithin funds rewards available =
      .ok (after, trace)) :
    trace.pulledCoverageFunds = 0 ∨
      ∃ max, trace.pulledCoverageFunds = funds.pullCoverageFunds max := by
  simp only [pullWithin, bind_eq_ok, pure_eq_ok, Prod.mk.injEq, Prod.exists]
    at returned
  obtain ⟨first, elFees, -, -, -, left, -, second, exceeding, -, rest, -,
    third, coverage, pulling, rfl, rfl⟩ := returned
  split at pulling
  · unfold pullCoverageFunds at pulling
    split at pulling
    · simp only [pure_eq_ok, Prod.mk.injEq] at pulling
      exact .inl pulling.2.symm
    · simp only [bind_eq_ok, pure_eq_ok, Prod.mk.injEq, Prod.exists]
        at pulling
      obtain ⟨river, got, collecting, rfl, rfl⟩ := pulling
      exact .inr ⟨rest, (River.collectToDeposit_ok collecting).1⟩
  · simp only [pure_eq_ok, Prod.mk.injEq] at pulling
    exact .inl pulling.2.symm

section Report

variable {funds : ExternalFunds} {timestamp : Nat}
  {report : ConsensusLayerReport} {trace : ReportingTrace}

/-- A report brings in what it pulls from the recipient and the fund. -/
theorem report_held (sound : Sound deployment system)
    (returned : system.setConsensusLayerData deployment funds timestamp
      sender report = .ok (after, trace)) :
    after.held deployment = system.held deployment + trace.pulledELFees +
      trace.pulledCoverageFunds := by
  obtain ⟨run⟩ := setConsensusLayerData_run sound.registry returned
  obtain ⟨max, pulling⟩ := run.pulled
  obtain ⟨-, sent, pulledManager⟩ := RedeemManager.pullExceedingEth_ok pulling
  have enough := (applyReport_ok run.stages.applying).1
  have prepared : run.prepared.held deployment = system.held deployment +
      trace.pulledELFees + trace.pulledCoverageFunds := by
    have transfers : paidAway deployment.river
        run.prepared.redeemManager.transfers =
          paidAway deployment.river system.redeemManager.transfers := by
      rw [pulledManager]
      show paidAway _ (_ ++ _) = _
      split
      · rw [List.append_nil]
      · exact paidAway_concat _ _ _
    have balance : run.prepared.redeemManager.balance +
        trace.pulledRedeemManagerExceedingEthBuffer =
          system.redeemManager.balance := by
      rw [pulledManager]
      exact Nat.sub_add_cancel sent
    have withdraw : run.prepared.withdraw.balance =
        system.withdraw.balance - (run.increase.skimmedAmountIncrease +
          run.increase.exitedAmountIncrease) := by
      rw [run.stages.prepared_eq]
      rfl
    have river : run.prepared.river.balance = system.river.balance +
        (run.increase.skimmedAmountIncrease +
          run.increase.exitedAmountIncrease) + trace.collected := by
      rw [run.stages.prepared_eq]
      rfl
    have count : run.prepared.river.depositedValidatorCount =
        system.river.depositedValidatorCount := by
      rw [run.stages.prepared_eq]
      rfl
    simp only [held, River.ether]
    rw [transfers, withdraw, river, count, ReportingTrace.collected]
    omega
  have withdrawn : run.withdrawn.held deployment =
      run.prepared.held deployment := by
    rcases reportWithdrawToRedeemManager_ok run.withdrawing with
      ⟨same, -⟩ | ⟨amount, eth, withdrawal⟩
    · rw [same]
    · obtain ⟨-, -, height, -, reported⟩ :=
        RedeemManager.reportWithdraw_ok withdrawal.reported
      have within := withdrawal.eth_le
      have ledger := (sound.prepare run.preparing).river.ledger
      have manager : run.withdrawn.redeemManager.balance =
          run.prepared.redeemManager.balance + eth := by
        rw [reported]
      have transfers : run.withdrawn.redeemManager.transfers =
          run.prepared.redeemManager.transfers := by
        rw [reported]
      have river : run.withdrawn.river = run.prepared.river.withdrawn
          deployment.redeemManager amount eth := by
        rw [withdrawal.after_eq]
      have withdraw : run.withdrawn.withdraw = run.prepared.withdraw := by
        rw [withdrawal.after_eq]
      simp only [held]
      rw [manager, transfers, river, withdraw]
      simp only [River.ether, River.withdrawn]
      omega
  have settled : (run.withdrawn.settled run.deposits).held deployment =
      run.withdrawn.held deployment := by
    simp only [held, System.settled, River.ether, River.committed,
      River.skimmed]
  rw [run.after_eq, settled, withdrawn, prepared]

theorem report_coverage
    (returned : system.setConsensusLayerData deployment funds timestamp
      sender report = .ok (after, trace)) :
    trace.pulledCoverageFunds = 0 ∨
      ∃ max, trace.pulledCoverageFunds = funds.pullCoverageFunds max := by
  obtain ⟨prepared, increase, preparing, -⟩ :=
    setConsensusLayerData_ok returned
  simp only [prepareReport, bind_eq_ok, pure_eq_ok, Prod.mk.injEq,
    Prod.exists] at preparing
  obtain ⟨increase, -, before, -, applied, -, post, -, rewards, available, -,
    pulled, answer, pulling, river, -, requested, -, -, -, rfl⟩ := preparing
  exact pullWithin_coverage pulling

end Report

end System

section Sums

variable {β : Type}

theorem total_written (weight : β → Nat) (items : Address → β)
    (account : Address) (written : β) :
    total (fun other => weight (Function.update items account written other)) +
        weight (items account) =
      total (fun other => weight (items other)) + weight written := by
  have same : (fun other => weight (Function.update items account written
      other)) = Function.update (fun other => weight (items other)) account
        (weight written) := by
    funext other
    by_cases named : other = account
    · rw [named, Function.update_self, Function.update_self]
    · rw [Function.update_of_ne named, Function.update_of_ne named]
  rw [same]
  exact total_update _ account _

end Sums

namespace FundedSystem

variable {deployment : Deployment} {funded after : FundedSystem}
  {received amount : Nat}

/-- All ether the protocol knows of. -/
def ether (deployment : Deployment) (funded : FundedSystem) : Nat :=
  funded.toSystem.held deployment +
    total (fun account => (funded.elFeeRecipients account).balance) +
    total (fun account => (funded.coverageFunds account).balance)

/-- The donations of a fund are what it may still send and what it sent. -/
structure Covered (fund : CoverageFund) : Prop where
  funded : fund.balanceForCoverage ≤ fund.balance
  booked : fund.balanceForCoverage + fund.pulled = fund.donated

theorem donate_ok {fund funded : CoverageFund} {allowlist : Allowlist}
    {sender : Address} {value : Nat}
    (returned : fund.donate allowlist sender value = .ok funded) :
    funded = { fund with
      balance := fund.balance + value
      balanceForCoverage := fund.balanceForCoverage + value
      donated := fund.donated + value } := by
  simp only [CoverageFund.donate, bind_eq_ok, pure_eq_ok] at returned
  obtain ⟨-, -, coverage, adding, -, -, rfl⟩ := returned
  cases added : (uadd fund.balanceForCoverage value : Except Error Nat) with
  | error reason =>
      rw [added] at adding
      cases adding
  | ok sum =>
      rw [added] at adding
      obtain rfl := Except.ok.inj adding
      rw [(uadd_eq_ok.mp added).2]

theorem pullCoverageFunds_ok {fund left : CoverageFund} {river : Address}
    {value sent : Nat} (covered : Covered fund)
    (within : value ≤ fund.balanceForCoverage)
    (returned : fund.pullCoverageFunds river river value =
      .ok (left, sent)) :
    Covered left ∧ left.balance + value = fund.balance := by
  have enough := covered.funded
  have booked := covered.booked
  simp only [CoverageFund.pullCoverageFunds, bind_eq_ok, LibUint256.min_eq]
    at returned
  obtain ⟨-, -, returned⟩ := returned
  split at returned
  · simp only [bind_eq_ok, usub_eq_ok, pure_eq_ok, Prod.mk.injEq]
      at returned
    obtain ⟨coverage, ⟨-, rfl⟩, -, -, rfl, rfl⟩ := returned
    refine ⟨⟨?_, ?_⟩, ?_⟩ <;> dsimp only <;> omega
  · simp only [pure_eq_ok, Prod.mk.injEq] at returned
    obtain ⟨rfl, rfl⟩ := returned
    exact ⟨covered, by omega⟩

/-- A run keeps the books of all contracts. -/
structure Booked (deployment : Deployment) (funded : FundedSystem)
    (received : Nat) : Prop where
  reachable : System.Reachable deployment funded.toSystem
  conserved : funded.ether deployment = received
  covered : ∀ account, Covered (funded.coverageFunds account)

theorem Booked.fresh (deployment : Deployment) :
    Booked deployment (FundedSystem.fresh deployment) 0 where
  reachable := .refl
  conserved := by
    simp [ether, System.held, River.ether, FundedSystem.fresh, System.fresh,
      RedeemManager.fresh, CoverageFund.fresh, paidAway, total]
  covered := fun _ => ⟨le_rfl, rfl⟩

theorem covered_update {funds : Address → CoverageFund} {account : Address}
    {written : CoverageFund} (covered : ∀ account, Covered (funds account))
    (kept : Covered written) (other : Address) :
    Covered (Function.update funds account written other) := by
  by_cases same : other = account
  · rw [same, Function.update_self]
    exact kept
  · rw [Function.update_of_ne same]
    exact covered other

/-- What a report does to the system and to the two contracts. -/
theorem setConsensusLayerData_ok {timestamp : Nat} {sender : Address}
    {report : ConsensusLayerReport} {trace : ReportingTrace}
    (sound : System.Sound deployment funded.toSystem)
    (covered : ∀ account, Covered (funded.coverageFunds account))
    (returned : funded.setConsensusLayerData deployment timestamp sender
      report = .ok (after, trace)) :
    ∃ system recipient fund,
      funded.toSystem.setConsensusLayerData deployment
        (funded.funds deployment) timestamp sender report =
          .ok (system, trace) ∧
      recipient.balance + trace.pulledELFees =
        funded.elFeeRecipient.balance ∧
      Covered fund ∧
      fund.balance + trace.pulledCoverageFunds =
        funded.coverageFund.balance ∧
      after = { system with
        elFeeRecipients := Function.update funded.elFeeRecipients
          funded.river.config.elFeeRecipient recipient
        coverageFunds := Function.update funded.coverageFunds
          funded.river.config.coverageFund fund } := by
  simp only [setConsensusLayerData, bind_eq_ok, pure_eq_ok, Prod.mk.injEq,
    Prod.exists] at returned
  obtain ⟨system, trace, reported, recipient, fees, pullingFees, fund, sent,
    pullingCoverage, rfl, rfl⟩ := returned
  have feesWithin : trace.pulledELFees ≤ funded.elFeeRecipient.balance := by
    obtain ⟨run⟩ := System.setConsensusLayerData_run sound.registry reported
    rw [run.stages.pulls.elFees]
    exact (ELFeeRecipient.sentBy_pullELFees _ _ _).trans_le
      (Nat.min_le_right _ _)
  have coverageWithin : trace.pulledCoverageFunds ≤
      funded.coverageFund.balanceForCoverage := by
    rcases System.report_coverage reported with none | ⟨max, pulled⟩
    · rw [none]
      exact Nat.zero_le _
    · rw [pulled]
      exact (CoverageFund.sentBy_pullCoverageFunds_le _ _ _).trans
        (Nat.min_le_right _ _)
  obtain ⟨kept, left⟩ :=
    pullCoverageFunds_ok (covered _) coverageWithin pullingCoverage
  refine ⟨system, recipient, fund, reported, ?_, kept, left, rfl⟩
  simp only [ELFeeRecipient.pullELFees, bind_eq_ok, pure_eq_ok,
    Prod.mk.injEq, LibUint256.min_eq] at pullingFees
  obtain ⟨-, -, rfl, -⟩ := pullingFees
  dsimp only
  omega

theorem Booked.step (booked : Booked deployment funded received)
    (step : Step deployment funded amount after) :
    Booked deployment after (received + amount) := by
  obtain ⟨reachable, conserved, covered⟩ := booked
  subst conserved
  cases step with
  | call external returned =>
      have moved := System.Call.apply_held returned
      refine ⟨reachable.tail (.operation (System.Call.operation external
        returned)), ?_, covered⟩
      simp only [ether]
      omega
  | consensusLayerWithdrawal amount =>
      refine ⟨reachable.tail (.operation (.consensusLayerWithdrawal amount)),
        ?_, covered⟩
      simp only [ether, System.held]
      omega
  | elFees account amount =>
      have written := total_written ELFeeRecipient.balance
        funded.elFeeRecipients account
          ((funded.elFeeRecipients account).receive amount)
      refine ⟨reachable, ?_, covered⟩
      simp only [ether, ELFeeRecipient.receive] at written ⊢
      omega
  | @donate _ account _ fund donating =>
      obtain rfl := donate_ok donating
      have before := covered account
      have written := total_written CoverageFund.balance
        funded.coverageFunds account
          { funded.coverageFunds account with
            balance := (funded.coverageFunds account).balance + amount
            balanceForCoverage :=
              (funded.coverageFunds account).balanceForCoverage + amount
            donated := (funded.coverageFunds account).donated + amount }
      refine ⟨reachable, ?_, covered_update covered ⟨?_, ?_⟩⟩
      · simp only [ether] at written ⊢
        omega
      · exact Nat.add_le_add_right before.funded _
      · have booked := before.booked
        dsimp only
        omega
  | forced account amount =>
      have before := covered account
      have written := total_written CoverageFund.balance
        funded.coverageFunds account
          { funded.coverageFunds account with
            balance := (funded.coverageFunds account).balance + amount }
      refine ⟨reachable, ?_, covered_update covered
        ⟨before.funded.trans (Nat.le_add_right _ _), before.booked⟩⟩
      simp only [ether] at written ⊢
      omega
  | report returned =>
      have sound := System.Sound.of_reachable reachable
      obtain ⟨system, recipient, fund, reported, fees, kept, coverage, rfl⟩ :=
        setConsensusLayerData_ok sound covered returned
      have moved := System.report_held sound reported
      have recipients := total_written ELFeeRecipient.balance
        funded.elFeeRecipients funded.river.config.elFeeRecipient recipient
      have funds := total_written CoverageFund.balance funded.coverageFunds
        funded.river.config.coverageFund fund
      refine ⟨reachable.tail (.report reported), ?_,
        covered_update covered kept⟩
      simp only [elFeeRecipient, coverageFund] at fees coverage
      simp only [ether]
      omega

/-- A run with the real recipient and fund is a run of the system.  All ether
that entered the protocol in it is held by one of its contracts, went to
validators or was paid by a claim, and each coverage fund holds what was
donated to it and not pulled. -/
theorem ether_accounted (run : Run deployment funded received) :
    System.Reachable deployment funded.toSystem ∧
    funded.river.balance + funded.redeemManager.balance +
        funded.withdraw.balance +
        total (fun account => (funded.elFeeRecipients account).balance) +
        total (fun account => (funded.coverageFunds account).balance) +
        depositSize * funded.river.depositedValidatorCount +
        paidAway deployment.river funded.redeemManager.transfers = received ∧
      ∀ account,
        (funded.coverageFunds account).balanceForCoverage ≤
            (funded.coverageFunds account).balance ∧
          (funded.coverageFunds account).balanceForCoverage +
              (funded.coverageFunds account).pulled =
            (funded.coverageFunds account).donated := by
  have booked : Booked deployment funded received := by
    induction run with
    | start => exact .fresh deployment
    | step run step induction => exact induction.step step
  refine ⟨booked.reachable, ?_, fun account =>
    ⟨(booked.covered account).funded, (booked.covered account).booked⟩⟩
  have conserved := booked.conserved
  simp only [ether, System.held, River.ether] at conserved
  omega

section Sample

open RiverProtocol.System (sample quietReport)
open RedeemManager (alice)

/-- Alice deposits 32 ether, and fees reach the recipient. -/
def sampleFees : Except Error FundedSystem := do
  let start := fresh sample
  let deposited ← System.Call.apply (.river (.deposit depositSize)) sample
    start.toSystem alice
  return { start with
    toSystem := deposited
    elFeeRecipients := Function.update start.elFeeRecipients (.ofNat 14)
      ((start.elFeeRecipients (.ofNat 14)).receive 1000) }

theorem sampleFees_run (returned : sampleFees = .ok funded) :
    Run sample funded (depositSize + 1000) := by
  simp only [sampleFees, bind_eq_ok, pure_eq_ok] at returned
  obtain ⟨deposited, depositing, rfl⟩ := returned
  have first := Run.start.step (.call (by decide) depositing)
  rw [Nat.zero_add] at first
  exact first.step (.elFees (.ofNat 14) 1000)

/-- A report pulls the fees to River. -/
theorem ether_accounted_sample : ∃ funded after trace,
    sampleFees = .ok funded ∧
      funded.setConsensusLayerData sample 1000000 (.ofNat 11)
        (quietReport 225 false) = .ok (after, trace) ∧
      after.river.balance = depositSize + 1000 ∧
      after.redeemManager.balance + after.withdraw.balance +
        total (fun account => (after.elFeeRecipients account).balance) = 0 := by
  have checked : returns sampleFees (fun funded =>
      returns (funded.setConsensusLayerData sample 1000000 (.ofNat 11)
        (quietReport 225 false)) fun result =>
          result.1.river.balance = depositSize + 1000) = true := by
    decide +kernel
  obtain ⟨funded, returned, reporting⟩ := returns_iff.mp checked
  obtain ⟨⟨after, trace⟩, reported, balance⟩ := returns_iff.mp reporting
  have balance := of_decide_eq_true balance
  obtain ⟨-, conserved, -⟩ := ether_accounted
    ((sampleFees_run returned).step (.report reported))
  refine ⟨funded, after, trace, returned, reported, balance, ?_⟩
  dsimp only at balance
  omega

end Sample

end FundedSystem

end RiverProtocol
