import Mathlib.Logic.Relation
import RiverProtocol.OperatorsRegistry.Model
import RiverProtocol.RedeemManager.Model
import RiverProtocol.Wlseth

/-!
# The contracts of the protocol, wired to each other

`System` holds the storage of all contracts that a report or a user call can
reach, and this module the functions that cross contracts.  The execution
layer fee recipient, the coverage fund and the deposit contract are taken as
parameters of the calls that use them.

In these functions a claim recipient accepts the ether or reverts.  What its
code may do meanwhile is the subject of `System/Reentrancy` and
`System/Recipients`, where the same loop runs it between a claim and the next.
-/

namespace RiverProtocol

open Checked Outcome LibAllowlistMasks

/-- The addresses of a deployment, and what its initializers were given. -/
structure Deployment where
  river : Address
  redeemManager : Address
  operatorsRegistry : Address
  wlseth : Address
  withdraw : Address
  distinct : [river, redeemManager, operatorsRegistry, wlseth, withdraw].Nodup
  nonzero : .zero ∉ [river, redeemManager, operatorsRegistry, wlseth, withdraw]
  config : RiverConfig
  registryAdmin : Address
  allowlists : Address → Allowlist

namespace Deployment

def contracts (deployment : Deployment) : List Address :=
  [deployment.river, deployment.redeemManager, deployment.operatorsRegistry,
    deployment.wlseth, deployment.withdraw]

/-- An account that is none of the contracts. -/
def External (deployment : Deployment) (account : Address) : Prop :=
  account ∉ deployment.contracts

instance (deployment : Deployment) (account : Address) :
    Decidable (deployment.External account) :=
  inferInstanceAs (Decidable (account ∉ _))

/-- `WithdrawV1.getCredentials` -/
def withdrawalCredentials (deployment : Deployment) : Nat :=
  Fin.val deployment.withdraw + 2 ^ 248

end Deployment

/-- The withdraw contract: its ether, and the ether River ever pulled. -/
structure Withdraw where
  balance : Nat
  pulled : Nat
  deriving DecidableEq, Repr

/-- Everything but the redeem manager. -/
structure World where
  river : River
  registry : OperatorsRegistry
  wlseth : WLSETH
  withdraw : Withdraw
  allowlists : Address → Allowlist

structure System extends World where
  redeemManager : RedeemManager

/-- The allowlist River points to. -/
def World.allowlist (world : World) : Allowlist :=
  world.allowlists world.river.config.allowlist

/-- The ether the execution layer fee recipient and the coverage fund send
when asked for at most `max`. -/
structure ExternalFunds where
  pullELFees : Nat → Nat
  pullCoverageFunds : Nat → Nat
  pullELFees_le : ∀ max, pullELFees max ≤ max
  pullCoverageFunds_le : ∀ max, pullCoverageFunds max ≤ max

/-- The official deposit contract: its root, and the deposits it accepts.  It
keeps the ether of those. -/
structure DepositContract where
  depositRoot : Nat
  accepts : (publicKey signature : Bytes) → Bool

/-- `ConsensusLayerDataReportingTrace` -/
structure ReportingTrace where
  rewards : Nat
  pulledELFees : Nat
  pulledRedeemManagerExceedingEthBuffer : Nat
  pulledCoverageFunds : Nat
  deriving DecidableEq, Repr

namespace System

/-- The system right after its initializers. -/
def fresh (deployment : Deployment) : System :=
  { river :=
      { balance := 0
        balanceToDeposit := 0
        committedBalance := 0
        balanceToRedeem := 0
        depositedValidatorCount := 0
        lastConsensusLayerReport :=
          { epoch := 0
            validatorsBalance := 0
            validatorsSkimmedBalance := 0
            validatorsExitedBalance := 0
            validatorsExitingBalance := 0
            validatorsCount := 0
            rebalanceDepositToRedeemMode := false
            slashingContainmentMode := false }
        shares := 0
        sharesPerOwner := fun _ => 0
        approvals := Function.update (fun _ _ => 0) deployment.river
          (Function.update (fun _ => 0) deployment.redeemManager maxUint256)
        config := deployment.config }
    registry := OperatorsRegistry.fresh deployment.registryAdmin
    wlseth := WLSETH.fresh
    withdraw := { balance := 0, pulled := 0 }
    allowlists := deployment.allowlists
    redeemManager := RedeemManager.fresh }

section Calls

variable (deployment : Deployment) (system : System)

/-- What the redeem manager calls when `sender` calls it.  River takes ether
through `receive`; the other contracts do not take any. -/
def riverCalls (sender : Address) (accepts : Address → Bool) :
    RiverCalls World :=
  { transferFrom := fun world amount => do
      let river ← world.river.transferFrom world.allowlist
        deployment.redeemManager sender deployment.redeemManager amount
      return (true, { world with river := river })
    underlyingBalanceFromShares := fun world shares =>
      world.river.balanceFromShares shares
    isDenied := fun world account => world.allowlist.isDenied account
    call := fun world recipient amount =>
      if recipient = deployment.river then
        match world.river.deposit world.allowlist deployment.redeemManager
          amount with
        | .ok river => some { world with river := river }
        | .error _ => none
      else if recipient ∈ deployment.contracts then none
      else if accepts recipient then some world
      else none }

/-- `_requestRedeem` of the redeem manager, called by `sender`. -/
def requestRedeemBy (sender : Address) (lsETHAmount : Nat)
    (recipient initiator : Address) : Except Error (System × Nat) := do
  let (redeemManager, world, id) ← RedeemManager.requestRedeem
    (riverCalls deployment sender fun _ => false) system.toWorld
    system.redeemManager lsETHAmount recipient initiator
  return ({ world with redeemManager := redeemManager }, id)

/-- `requestRedeem` of the redeem manager with a recipient. -/
def requestRedeemFor (sender : Address) (lsETHAmount : Nat)
    (recipient : Address) : Except Error (System × Nat) := do
  require (system.river.slashingContainmentMode = false)
    .slashingContainmentModeEnabled
  system.allowlist.onlyAllowed sender redeemMask
  require (system.allowlist.isDenied recipient = false) .recipientIsDenied
  system.requestRedeemBy deployment sender lsETHAmount recipient sender

/-- `requestRedeem` of the redeem manager without a recipient. -/
def requestRedeemSelf (sender : Address) (lsETHAmount : Nat) :
    Except Error (System × Nat) := do
  require (system.river.slashingContainmentMode = false)
    .slashingContainmentModeEnabled
  system.allowlist.onlyAllowed sender redeemMask
  system.requestRedeemBy deployment sender lsETHAmount sender sender

/-- `requestRedeem` of River. -/
def requestRedeem (sender : Address) (lsETHAmount : Nat)
    (recipient : Address) : Except Error (System × Nat) := do
  require (system.river.slashingContainmentMode = false)
    .slashingContainmentModeEnabled
  system.allowlist.onlyAllowed sender redeemMask
  require (system.allowlist.isDenied recipient = false) .recipientIsDenied
  let river ← system.river.transferShares sender deployment.river lsETHAmount
  let held : System := { system with river := river }
  held.requestRedeemBy deployment deployment.river lsETHAmount recipient sender

/-- `claimRedeemRequests` of the redeem manager. -/
def claimRedeemRequests (sender : Address) (accepts : Address → Bool)
    (redeemRequestIds withdrawalEventIds : List Nat)
    (skipAlreadyClaimed : Bool) (depth : Nat) :
    Except Error (System × List ClaimStatus) := do
  let (redeemManager, world, statuses) ← RedeemManager.claimRedeemRequests
    (riverCalls deployment sender accepts) system.toWorld
    system.redeemManager redeemRequestIds withdrawalEventIds
    skipAlreadyClaimed depth
  return ({ world with redeemManager := redeemManager }, statuses)

/-- `claimRedeemRequests` of River, and of the redeem manager with two
arguments. -/
def claimAllRedeemRequests (sender : Address) (accepts : Address → Bool)
    (redeemRequestIds withdrawalEventIds : List Nat) :
    Except Error (System × List ClaimStatus) :=
  system.claimRedeemRequests deployment sender accepts redeemRequestIds
    withdrawalEventIds true (2 ^ 16 - 1)

/-- `mint` of the wrapper. -/
def wrap (sender recipient : Address) (shares : Nat) :
    Except Error System := do
  let (wlseth, river) ← system.wlseth.mint deployment.wlseth system.river
    system.allowlist sender recipient shares
  return { system with wlseth := wlseth, river := river }

/-- `burn` of the wrapper. -/
def unwrap (sender recipient : Address) (shares : Nat) :
    Except Error System := do
  let (wlseth, river) ← system.wlseth.burn deployment.wlseth system.river
    system.allowlist sender recipient shares
  return { system with wlseth := wlseth, river := river }

/-- `_depositValidator` -/
def depositValidator (contract : DepositContract) (river : River)
    (publicKey signature : Bytes) : Except Error River := do
  require (publicKey.length = ValidatorKeys.publicKeyLength)
    .inconsistentPublicKeys
  require (signature.length = ValidatorKeys.signatureLength)
    .inconsistentSignatures
  let targetBalance ← usub river.balance depositSize
  require (contract.accepts publicKey signature = true)
    (.callFailed .reverted)
  let deposited : River := { river with
    balance := river.balance - depositSize }
  require (deposited.balance = targetBalance) .errorOnDeposit
  return deposited

/-- The loop over the picked validators. -/
def depositValidators (contract : DepositContract) :
    List (Bytes × Bytes) → River → Except Error River
  | [], river => return river
  | (publicKey, signature) :: rest, river => do
    let river ← depositValidator contract river publicKey signature
    depositValidators contract rest river

/-- The loop that adds up the allocated validators. -/
def totalRequested : Nat → List OperatorAllocation → Except Error Nat
  | total, [] => return total
  | total, allocation :: rest => do
    let total ← uadd total allocation.validatorCount
    totalRequested total rest

/-- `depositToConsensusLayerWithDepositRoot` -/
def depositToConsensusLayer (contract : DepositContract) (sender : Address)
    (allocations : List OperatorAllocation) (depositRoot : Nat) :
    Except Error System := do
  let river := system.river
  require (sender = river.config.keeper) .onlyKeeper
  require (river.slashingContainmentMode = false)
    .slashingContainmentModeEnabled
  require (contract.depositRoot = depositRoot) .invalidDepositRoot
  let maxDepositableCount ← udiv river.committedBalance depositSize
  require (maxDepositableCount ≠ 0) .notEnoughFunds
  let requested ← totalRequested 0 allocations
  require (requested ≤ maxDepositableCount)
    .operatorAllocationsExceedCommittedBalance
  let (registry, validators) ←
    system.registry.pickNextValidatorsToDeposit allocations
  let receivedPublicKeyCount := validators.length
  require (receivedPublicKeyCount ≠ 0) .noAvailableValidatorKeys
  require (receivedPublicKeyCount ≤ maxDepositableCount ∧
    receivedPublicKeyCount = requested) .invalidPublicKeyCount
  require (deployment.withdrawalCredentials ≠ 0) .invalidWithdrawalCredentials
  let river ← depositValidators contract validators river
  let deposited ← umul depositSize receivedPublicKeyCount
  let committedBalance ← usub system.river.committedBalance deposited
  let depositedValidatorCount ← uadd river.depositedValidatorCount
    receivedPublicKeyCount
  return { system with
    registry := registry
    river := { river with
      committedBalance := committedBalance
      depositedValidatorCount := depositedValidatorCount } }

/-- `_pullCLFunds`, with `pullEth` of the withdraw contract. -/
def pullCLFunds (skimmedEthAmount exitedEthAmount : Nat) :
    Except Error System := do
  let totalAmountToPull ← uadd skimmedEthAmount exitedEthAmount
  let amountToPull :=
    LibUint256.min system.withdraw.balance totalAmountToPull
  let balance ← uadd system.river.balance amountToPull
  let collectedCLFunds ← usub balance system.river.balance
  require (collectedCLFunds = totalAmountToPull)
    (.invalidPulledClFundsAmount totalAmountToPull collectedCLFunds)
  let balanceToDeposit ← (
    if skimmedEthAmount > 0 then
      uadd system.river.balanceToDeposit skimmedEthAmount
    else pure system.river.balanceToDeposit)
  let balanceToRedeem ← (
    if exitedEthAmount > 0 then
      uadd system.river.balanceToRedeem exitedEthAmount
    else pure system.river.balanceToRedeem)
  return { system with
    withdraw :=
      { balance := system.withdraw.balance - amountToPull
        pulled := system.withdraw.pulled + amountToPull }
    river := { system.river with
      balance := balance
      balanceToDeposit := balanceToDeposit
      balanceToRedeem := balanceToRedeem } }

/-- `_pullELFees` -/
def pullELFees (funds : ExternalFunds) (max : Nat) :
    Except Error (System × Nat) := do
  let (river, collected) ←
    system.river.collectToDeposit (funds.pullELFees max)
  return ({ system with river := river }, collected)

/-- `_pullCoverageFunds` -/
def pullCoverageFunds (funds : ExternalFunds) (max : Nat) :
    Except Error (System × Nat) :=
  if system.river.config.coverageFund = .zero then
    return (system, 0)
  else do
    let (river, collected) ←
      system.river.collectToDeposit (funds.pullCoverageFunds max)
    return ({ system with river := river }, collected)

/-- `_pullRedeemManagerExceedingEth` -/
def pullRedeemManagerExceedingEth (max : Nat) :
    Except Error (System × Nat) := do
  let (redeemManager, sent) ← system.redeemManager.pullExceedingEth max
  let (river, collected) ← system.river.collectToDeposit sent
  return ({ system with redeemManager := redeemManager, river := river },
    collected)

/-- `_requestExitsBasedOnRedeemDemandAfterRebalancings` after the stopped
counts are reported and outside slashing containment. -/
def requestExits (exitingBalance : Nat)
    (depositToRedeemRebalancingAllowed : Bool) : Except Error System :=
  if system.river.shares > 0 then do
    let redeemManagerDemandInEth ←
      system.river.balanceFromShares system.redeemManager.redeemDemand
    let covered ← uadd system.river.balanceToRedeem exitingBalance
    if covered < redeemManagerDemandInEth then do
      let river ← system.river.rebalance redeemManagerDemandInEth
        exitingBalance depositToRedeemRebalancingAllowed
      let (totalStoppedValidatorCount, totalRequestedExitsCount) ←
        system.registry.getStoppedAndRequestedExitCounts
      let preExiting ← (
        if totalRequestedExitsCount > totalStoppedValidatorCount then
          usub totalRequestedExitsCount totalStoppedValidatorCount
        else pure 0)
      let preExitingBalance ← umul preExiting depositSize
      let covered ← uadd river.balanceToRedeem exitingBalance
      let covered ← uadd covered preExitingBalance
      if covered < redeemManagerDemandInEth then do
        let missing ← usub redeemManagerDemandInEth covered
        let validatorCountToExit ← LibUint256.ceil missing depositSize
        let registry ← system.registry.demandValidatorExits
          validatorCountToExit river.depositedValidatorCount
        return { system with river := river, registry := registry }
      else
        return { system with river := river }
    else
      return system
  else
    return system

/-- `_requestExitsBasedOnRedeemDemandAfterRebalancings` -/
def requestExitsBasedOnRedeemDemandAfterRebalancings (exitingBalance : Nat)
    (stoppedValidatorCounts : List Nat)
    (depositToRedeemRebalancingAllowed slashingContainmentModeEnabled : Bool) :
    Except Error System := do
  let registry ← system.registry.reportStoppedValidatorCounts
    stoppedValidatorCounts system.river.depositedValidatorCount
  let reported : System := { system with registry := registry }
  if slashingContainmentModeEnabled then
    return reported
  else
    reported.requestExits exitingBalance depositToRedeemRebalancingAllowed

/-- The LsETH and the ether that `_reportWithdrawToRedeemManager` supplies. -/
def suppliedDemand : Except Error (Nat × Nat) := do
  let redeemManagerDemand := system.redeemManager.redeemDemand
  let redeemManagerDemandInEth ←
    system.river.balanceFromShares redeemManagerDemand
  let availableBalanceToRedeem := system.river.balanceToRedeem
  if redeemManagerDemandInEth > availableBalanceToRedeem then do
    let supplied ← system.river.sharesFromBalance availableBalanceToRedeem
    return (supplied, availableBalanceToRedeem)
  else
    return (redeemManagerDemand, redeemManagerDemandInEth)

/-- `_reportWithdrawToRedeemManager` -/
def reportWithdrawToRedeemManager : Except Error System := do
  let underlyingAssetBalance ← system.river.assetBalance
  let totalSupply := system.river.shares
  if underlyingAssetBalance > 0 ∧ totalSupply > 0 then do
    let (suppliedRedeemManagerDemand, suppliedRedeemManagerDemandInEth) ←
      system.suppliedDemand
    if suppliedRedeemManagerDemandInEth > 0 then do
      -- the subtraction is unchecked in the source
      let lowered : River := { system.river with
        balanceToRedeem :=
          system.river.balanceToRedeem - suppliedRedeemManagerDemandInEth }
      let burnt ← lowered.burnRawShares deployment.redeemManager
        suppliedRedeemManagerDemand
      require (suppliedRedeemManagerDemandInEth ≤ burnt.balance)
        (.callFailed .insufficientBalance)
      let redeemManager ← system.redeemManager.reportWithdraw
        suppliedRedeemManagerDemand suppliedRedeemManagerDemandInEth
      return { system with
        redeemManager := redeemManager
        river := { burnt with
          balance := burnt.balance - suppliedRedeemManagerDemandInEth } }
    else
      return system
  else
    return system

/-- The part of `setConsensusLayerData` up to the new stored report. -/
def applyReport (increase : River.ReportIncrease)
    (report : ConsensusLayerReport) : Except Error System := do
  let total ← uadd increase.exitedAmountIncrease
    increase.skimmedAmountIncrease
  let pulled ← (
    if total > 0 then
      system.pullCLFunds increase.skimmedAmountIncrease
        increase.exitedAmountIncrease
    else pure system)
  return { pulled with river := { pulled.river with
    lastConsensusLayerReport := report.toStoredConsensusLayerReport } }

/-- The three pulls of a report that may use `available` wei in all. -/
def pullWithin (funds : ExternalFunds) (rewards available : Nat) :
    Except Error (System × ReportingTrace) := do
  let (system, pulledELFees) ← (
    if available > 0 then system.pullELFees funds available
    else pure (system, 0))
  let rewards ← uadd rewards pulledELFees
  let available ← usub available pulledELFees
  let (system, pulledExceeding) ← (
    if available > 0 then system.pullRedeemManagerExceedingEth available
    else pure (system, 0))
  let available ← usub available pulledExceeding
  let (system, pulledCoverageFunds) ← (
    if available > 0 then system.pullCoverageFunds funds available
    else pure (system, 0))
  return (system,
    { rewards := rewards
      pulledELFees := pulledELFees
      pulledRedeemManagerExceedingEthBuffer := pulledExceeding
      pulledCoverageFunds := pulledCoverageFunds })

/-- The part of `setConsensusLayerData` before the withdrawal step. -/
def prepareReport (funds : ExternalFunds) (timestamp : Nat)
    (sender : Address) (report : ConsensusLayerReport) :
    Except Error (System × River.ReportIncrease × ReportingTrace) := do
  let increase ← system.river.checkReport sender timestamp report
  let preReportUnderlyingBalance ← system.river.assetBalance
  let applied ← system.applyReport increase report
  let postReportUnderlyingBalance ← applied.river.assetBalance
  let (rewards, available) ← River.checkBounds
    applied.river.config.reportBounds increase.timeElapsedSinceLastReport
    preReportUnderlyingBalance postReportUnderlyingBalance
  let (pulled, trace) ← applied.pullWithin funds rewards available
  let river ← (
    if trace.rewards > 0 then pulled.river.onEarnings trace.rewards
    else pure pulled.river)
  let rewarded : System := { pulled with river := river }
  let requested ←
    rewarded.requestExitsBasedOnRedeemDemandAfterRebalancings
      report.validatorsExitingBalance report.stoppedValidatorCountPerOperator
      report.rebalanceDepositToRedeemMode report.slashingContainmentMode
  return (requested, increase, trace)

/-- The part of `setConsensusLayerData` from the withdrawal step on. -/
def finishReport (timeElapsed : Nat) (slashingContainmentMode : Bool) :
    Except Error System := do
  let withdrawn ← system.reportWithdrawToRedeemManager deployment
  let skimmed ← withdrawn.river.skimExcessBalanceToRedeem
  let committed ← skimmed.commitBalanceToDeposit timeElapsed
    slashingContainmentMode
  return { withdrawn with river := committed }

/-- `setConsensusLayerData` -/
def setConsensusLayerData (funds : ExternalFunds) (timestamp : Nat)
    (sender : Address) (report : ConsensusLayerReport) :
    Except Error (System × ReportingTrace) := do
  let (prepared, increase, trace) ← system.prepareReport funds timestamp
    sender report
  let settled ← prepared.finishReport deployment
    increase.timeElapsedSinceLastReport report.slashingContainmentMode
  return (settled, trace)

end Calls

/-- A successful call other than an oracle report, by an account that is none
of the contracts.  Claims through River, and claims with two arguments, are
claims with the flag and the depth fixed. -/
inductive Operation (deployment : Deployment) : System → System → Prop where
  | river {system : System} {river : River} {sender : Address}
      {call : River.Call} : deployment.External sender →
      call.apply system.river system.allowlist sender = .ok river →
      Operation deployment system { system with river := river }
  | requestRedeem {system after : System} {sender recipient : Address}
      {lsETHAmount id : Nat} : deployment.External sender →
      system.requestRedeem deployment sender lsETHAmount recipient =
        .ok (after, id) → Operation deployment system after
  | requestRedeemFor {system after : System} {sender recipient : Address}
      {lsETHAmount id : Nat} : deployment.External sender →
      system.requestRedeemFor deployment sender lsETHAmount recipient =
        .ok (after, id) → Operation deployment system after
  | requestRedeemSelf {system after : System} {sender : Address}
      {lsETHAmount id : Nat} : deployment.External sender →
      system.requestRedeemSelf deployment sender lsETHAmount =
        .ok (after, id) → Operation deployment system after
  | claimRedeemRequests {system after : System} {sender : Address}
      {accepts : Address → Bool}
      {redeemRequestIds withdrawalEventIds : List Nat}
      {skipAlreadyClaimed : Bool} {depth : Nat}
      {statuses : List ClaimStatus} : deployment.External sender →
      system.claimRedeemRequests deployment sender accepts redeemRequestIds
        withdrawalEventIds skipAlreadyClaimed depth = .ok (after, statuses) →
      Operation deployment system after
  | wrap {system after : System} {sender recipient : Address} {shares : Nat} :
      deployment.External sender →
      system.wrap deployment sender recipient shares = .ok after →
      Operation deployment system after
  | unwrap {system after : System} {sender recipient : Address}
      {shares : Nat} : deployment.External sender →
      system.unwrap deployment sender recipient shares = .ok after →
      Operation deployment system after
  | wrapper {system : System} {wlseth : WLSETH} {sender : Address}
      {call : WLSETH.Call} : deployment.External sender →
      call.apply system.wlseth system.river system.allowlist sender =
        .ok wlseth →
      Operation deployment system { system with wlseth := wlseth }
  | depositToConsensusLayer {system after : System}
      {contract : DepositContract} {sender : Address}
      {allocations : List OperatorAllocation} {depositRoot : Nat} :
      deployment.External sender →
      system.depositToConsensusLayer deployment contract sender allocations
        depositRoot = .ok after → Operation deployment system after
  | requestValidatorExits {system : System} {registry : OperatorsRegistry}
      {sender : Address} {allocations : List OperatorAllocation} :
      deployment.External sender →
      system.registry.requestValidatorExits system.river.config.keeper sender
        allocations = .ok registry →
      Operation deployment system { system with registry := registry }
  | registry {system : System} {registry : OperatorsRegistry}
      {sender : Address} {blockNumber : Nat}
      {call : OperatorsRegistry.Call} : deployment.External sender →
      call.apply system.registry sender blockNumber = .ok registry →
      Operation deployment system { system with registry := registry }
  | allowlist {system : System} {allowlist : Allowlist}
      {sender account : Address} {call : Allowlist.Call} :
      deployment.External sender →
      call.apply (system.allowlists account) sender = .ok allowlist →
      Operation deployment system { system with
        allowlists := Function.update system.allowlists account allowlist }
  | consensusLayerWithdrawal {system : System} (amount : Nat) :
      Operation deployment system { system with
        withdraw := { system.withdraw with
          balance := system.withdraw.balance + amount } }

/-- A successful call of any kind. -/
inductive Step (deployment : Deployment) : System → System → Prop where
  | operation {system after : System} :
      Operation deployment system after → Step deployment system after
  | report {system after : System} {funds : ExternalFunds} {timestamp : Nat}
      {sender : Address} {report : ConsensusLayerReport}
      {trace : ReportingTrace} :
      system.setConsensusLayerData deployment funds timestamp sender report =
        .ok (after, trace) → Step deployment system after

/-- States a fresh deployment reaches by any run of calls. -/
def Reachable (deployment : Deployment) (system : System) : Prop :=
  Relation.ReflTransGen (Step deployment) (fresh deployment) system

end System

end RiverProtocol
