import RiverProtocol.Allowlist

/-!
# The River contract

Storage, the shares and the deposits of River, and the parts of a report that
touch no other contract.  `balance` is the ether the contract holds.  Calls to
the other contracts of the protocol are in `System`.
-/

namespace RiverProtocol

open Checked Outcome LibAllowlistMasks

structure CLSpec where
  epochsPerFrame : Nat
  slotsPerEpoch : Nat
  secondsPerSlot : Nat
  genesisTime : Nat
  epochsToAssumedFinality : Nat
  deriving DecidableEq, Repr

structure ReportBounds where
  annualAprUpperBound : Nat
  relativeLowerBound : Nat
  deriving DecidableEq, Repr

structure DailyCommittableLimits where
  minDailyNetCommittableAmount : Nat
  maxDailyRelativeCommittableAmount : Nat
  deriving DecidableEq, Repr

/-- `IOracleManagerV1.StoredConsensusLayerReport` -/
structure StoredConsensusLayerReport where
  epoch : Nat
  validatorsBalance : Nat
  validatorsSkimmedBalance : Nat
  validatorsExitedBalance : Nat
  validatorsExitingBalance : Nat
  validatorsCount : Nat
  rebalanceDepositToRedeemMode : Bool
  slashingContainmentMode : Bool
  deriving DecidableEq, Repr

/-- `IOracleManagerV1.ConsensusLayerReport` -/
structure ConsensusLayerReport extends StoredConsensusLayerReport where
  stoppedValidatorCountPerOperator : List Nat
  deriving DecidableEq, Repr

/-- A fee in basis points that `LibSanitize._validFee` accepts. -/
def Fee : Type := { fee : Nat // fee ≤ basisPointsMax }

def validFee (fee : Nat) : Except Error Fee :=
  if valid : fee ≤ basisPointsMax then .ok ⟨fee, valid⟩ else .error .invalidFee

structure RiverConfig where
  administrable : Administrable
  oracle : Address
  keeper : Address
  collector : Address
  elFeeRecipient : Address
  coverageFund : Address
  allowlist : Address
  globalFee : Fee
  metadataURI : String
  clSpec : CLSpec
  reportBounds : ReportBounds
  dailyCommittableLimits : DailyCommittableLimits

structure River where
  balance : Nat
  balanceToDeposit : Nat
  committedBalance : Nat
  balanceToRedeem : Nat
  depositedValidatorCount : Nat
  lastConsensusLayerReport : StoredConsensusLayerReport
  shares : Nat
  sharesPerOwner : Address → Nat
  approvals : Address → Address → Nat
  config : RiverConfig

namespace River

def slashingContainmentMode (river : River) : Bool :=
  river.lastConsensusLayerReport.slashingContainmentMode

/-- `_assetBalance` -/
def assetBalance (river : River) : Except Error Nat := do
  let report := river.lastConsensusLayerReport
  let total ← uadd report.validatorsBalance river.balanceToDeposit
  let total ← uadd total river.committedBalance
  let total ← uadd total river.balanceToRedeem
  if report.validatorsCount < river.depositedValidatorCount then do
    let pending ← usub river.depositedValidatorCount report.validatorsCount
    let pendingBalance ← umul pending depositSize
    uadd total pendingBalance
  else
    return total

/-- `_onTransfer` -/
def onTransfer (allowlist : Allowlist) (sender recipient : Address) :
    Except Error Unit := do
  require (allowlist.isDenied sender = false) (.denied sender)
  require (allowlist.isDenied recipient = false) (.denied recipient)

/-- `_transfer` -/
def transferShares (river : River) (sender recipient : Address)
    (value : Nat) : Except Error River := do
  let senderShares ← usub (river.sharesPerOwner sender) value
  let debited := Function.update river.sharesPerOwner sender senderShares
  let recipientShares ← uadd (debited recipient) value
  return { river with
    sharesPerOwner := Function.update debited recipient recipientShares }

/-- `_mintRawShares` -/
def mintRawShares (river : River) (owner : Address) (value : Nat) :
    Except Error River := do
  let shares ← uadd river.shares value
  let ownerShares ← uadd (river.sharesPerOwner owner) value
  return { river with
    shares := shares
    sharesPerOwner := Function.update river.sharesPerOwner owner ownerShares }

/-- `_burnRawShares` -/
def burnRawShares (river : River) (owner : Address) (value : Nat) :
    Except Error River := do
  let shares ← usub river.shares value
  let ownerShares ← usub (river.sharesPerOwner owner) value
  return { river with
    shares := shares
    sharesPerOwner := Function.update river.sharesPerOwner owner ownerShares }

/-- `_balanceFromShares` -/
def balanceFromShares (river : River) (shares : Nat) : Except Error Nat :=
  if river.shares = 0 then return 0
  else do
    let assets ← river.assetBalance
    let product ← umul shares assets
    udiv product river.shares

/-- `_sharesFromBalance` -/
def sharesFromBalance (river : River) (balance : Nat) : Except Error Nat := do
  let assets ← river.assetBalance
  if assets = 0 then return 0
  else do
    let product ← umul balance river.shares
    udiv product assets

/-- `_mintShares`, with the minted shares. -/
def mintShares (river : River) (owner : Address)
    (underlyingAssetValue : Nat) : Except Error (River × Nat) := do
  let assets ← river.assetBalance
  let oldTotalAssetBalance ← usub assets underlyingAssetValue
  if oldTotalAssetBalance = 0 ∨ river.shares = 0 then do
    let river ← river.mintRawShares owner underlyingAssetValue
    return (river, underlyingAssetValue)
  else do
    let product ← umul underlyingAssetValue river.shares
    let sharesToMint ← udiv product oldTotalAssetBalance
    let river ← river.mintRawShares owner sharesToMint
    return (river, sharesToMint)

/-- Write one approval. -/
def setApproval (river : River) (owner spender : Address) (value : Nat) :
    River :=
  { river with
    approvals := Function.update river.approvals owner
      (Function.update (river.approvals owner) spender value) }

/-- `_approve` -/
def approveFor (river : River) (owner spender : Address) (value : Nat) :
    Except Error River := do
  notZeroAddress owner
  notZeroAddress spender
  return river.setApproval owner spender value

/-- `_spendAllowance` -/
def spendAllowance (river : River) (sender owner : Address) (value : Nat) :
    Except Error River := do
  let currentAllowance := river.approvals owner sender
  require (value ≤ currentAllowance)
    (.allowanceTooLow owner sender currentAllowance value)
  if currentAllowance ≠ maxUint256 then
    river.approveFor owner sender (currentAllowance - value)
  else
    return river

/-- `transfer` -/
def transfer (river : River) (allowlist : Allowlist)
    (sender recipient : Address) (value : Nat) : Except Error River := do
  onTransfer allowlist sender recipient
  require (value ≠ 0) .nullTransfer
  require (value ≤ river.sharesPerOwner sender) .balanceTooLow
  require (recipient ≠ .zero) (.unauthorizedTransfer sender .zero)
  river.transferShares sender recipient value

/-- `transferFrom` -/
def transferFrom (river : River) (allowlist : Allowlist)
    (sender owner recipient : Address) (value : Nat) :
    Except Error River := do
  onTransfer allowlist owner recipient
  require (value ≠ 0) .nullTransfer
  require (value ≤ river.sharesPerOwner owner) .balanceTooLow
  require (recipient ≠ .zero) (.unauthorizedTransfer owner .zero)
  let river ← river.spendAllowance sender owner value
  river.transferShares owner recipient value

/-- `approve` -/
def approve (river : River) (sender spender : Address) (value : Nat) :
    Except Error River :=
  river.approveFor sender spender value

/-- `increaseAllowance` -/
def increaseAllowance (river : River) (sender spender : Address)
    (additionalValue : Nat) : Except Error River := do
  let value ← uadd (river.approvals sender spender) additionalValue
  river.approveFor sender spender value

/-- `decreaseAllowance` -/
def decreaseAllowance (river : River) (sender spender : Address)
    (subtractableValue : Nat) : Except Error River := do
  let value ← usub (river.approvals sender spender) subtractableValue
  river.approveFor sender spender value

/-- `_onDeposit` -/
def onDeposit (river : River) (allowlist : Allowlist)
    (depositor recipient : Address) (amount : Nat) : Except Error River := do
  let (river, mintedShares) ← river.mintShares depositor amount
  allowlist.onlyAllowed depositor depositMask
  if depositor ≠ recipient then do
    require (allowlist.isDenied recipient = false) (.denied recipient)
    river.transferShares depositor recipient mintedShares
  else
    return river

/-- `_deposit` of a call that carries `value` wei. -/
def depositFor (river : River) (allowlist : Allowlist)
    (sender recipient : Address) (value : Nat) : Except Error River := do
  let balance ← uadd river.balance value
  require (river.slashingContainmentMode = false)
    .slashingContainmentModeEnabled
  require (value ≠ 0) .emptyDeposit
  let balanceToDeposit ← uadd river.balanceToDeposit value
  let credited : River := { river with
    balance := balance
    balanceToDeposit := balanceToDeposit }
  credited.onDeposit allowlist sender recipient value

/-- `deposit`, and `receive`. -/
def deposit (river : River) (allowlist : Allowlist) (sender : Address)
    (value : Nat) : Except Error River :=
  river.depositFor allowlist sender sender value

/-- `depositAndTransfer` -/
def depositAndTransfer (river : River) (allowlist : Allowlist)
    (sender recipient : Address) (value : Nat) : Except Error River := do
  notZeroAddress recipient
  river.depositFor allowlist sender recipient value

/-- `_currentEpoch` -/
def currentEpoch (cls : CLSpec) (timestamp : Nat) : Except Error Nat := do
  let elapsed ← usub timestamp cls.genesisTime
  let slot ← udiv elapsed cls.secondsPerSlot
  udiv slot cls.slotsPerEpoch

/-- `_isValidEpoch` -/
def isValidEpoch (river : River) (timestamp epoch : Nat) :
    Except Error Bool := do
  let cls := river.config.clSpec
  let current ← currentEpoch cls timestamp
  let final ← uadd epoch cls.epochsToAssumedFinality
  if final ≤ current ∧ epoch > river.lastConsensusLayerReport.epoch then do
    let position ← umod epoch cls.epochsPerFrame
    return decide (position = 0)
  else
    return false

/-- `_timeBetweenEpochs` -/
def timeBetweenEpochs (cls : CLSpec) (epochPast epochNow : Nat) :
    Except Error Nat := do
  let epochs ← usub epochNow epochPast
  let secondsPerEpoch ← umul64 cls.secondsPerSlot cls.slotsPerEpoch
  umul epochs secondsPerEpoch

/-- `ONE_YEAR` -/
def oneYear : Nat := 365 * 86400

/-- `_maxIncrease` -/
def maxIncrease (rb : ReportBounds) (prevTotalEth timeElapsed : Nat) :
    Except Error Nat := do
  let product ← umul prevTotalEth rb.annualAprUpperBound
  let product ← umul product timeElapsed
  udiv product (basisPointsMax * oneYear)

/-- `_maxDecrease` -/
def maxDecrease (rb : ReportBounds) (prevTotalEth : Nat) :
    Except Error Nat := do
  let product ← umul prevTotalEth rb.relativeLowerBound
  udiv product basisPointsMax

/-- What the start of a report computes from the last one. -/
structure ReportIncrease where
  exitedAmountIncrease : Nat
  skimmedAmountIncrease : Nat
  timeElapsedSinceLastReport : Nat

/-- The checks at the start of `setConsensusLayerData`. -/
def checkReport (river : River) (sender : Address) (timestamp : Nat)
    (report : ConsensusLayerReport) : Except Error ReportIncrease := do
  let last := river.lastConsensusLayerReport
  require (sender = river.config.oracle) (.unauthorized sender)
  let valid ← river.isValidEpoch timestamp report.epoch
  require (valid = true) (.invalidEpoch report.epoch)
  require (last.validatorsExitedBalance ≤ report.validatorsExitedBalance)
    (.invalidDecreasingValidatorsExitedBalance last.validatorsExitedBalance
      report.validatorsExitedBalance)
  let exitedAmountIncrease ← usub report.validatorsExitedBalance
    last.validatorsExitedBalance
  require (last.validatorsSkimmedBalance ≤ report.validatorsSkimmedBalance)
    (.invalidDecreasingValidatorsSkimmedBalance last.validatorsSkimmedBalance
      report.validatorsSkimmedBalance)
  require (report.validatorsCount ≤ river.depositedValidatorCount ∧
    last.validatorsCount ≤ report.validatorsCount)
    (.invalidValidatorCountReport report.validatorsCount
      river.depositedValidatorCount last.validatorsCount)
  let skimmedAmountIncrease ← usub report.validatorsSkimmedBalance
    last.validatorsSkimmedBalance
  let timeElapsed ← timeBetweenEpochs river.config.clSpec last.epoch
    report.epoch
  return { exitedAmountIncrease := exitedAmountIncrease
           skimmedAmountIncrease := skimmedAmountIncrease
           timeElapsedSinceLastReport := timeElapsed }

/-- The rewards of a report and the amount that may still be pulled, from the
asset balances before and after its values are applied. -/
def checkBounds (rb : ReportBounds) (timeElapsed preReport postReport : Nat) :
    Except Error (Nat × Nat) := do
  let maxIncrease ← maxIncrease rb preReport timeElapsed
  if postReport ≥ preReport then do
    let upper ← uadd preReport maxIncrease
    require (postReport ≤ upper)
      (.totalValidatorBalanceIncreaseOutOfBound preReport postReport
        timeElapsed rb.annualAprUpperBound)
    let rewards ← usub postReport preReport
    let available ← usub maxIncrease rewards
    return (rewards, available)
  else do
    let maxDecrease ← maxDecrease rb preReport
    let lower ← usub preReport (LibUint256.min maxDecrease preReport)
    require (lower ≤ postReport)
      (.totalValidatorBalanceDecreaseOutOfBound preReport postReport
        timeElapsed rb.relativeLowerBound)
    let loss ← usub preReport postReport
    let available ← uadd maxIncrease loss
    return (0, available)

/-- Receive pulled ether and add it to the balance to deposit: the tail of
`_pullELFees`, `_pullCoverageFunds` and `_pullRedeemManagerExceedingEth`,
with the amount collected. -/
def collectToDeposit (river : River) (sent : Nat) :
    Except Error (River × Nat) := do
  let balance ← uadd river.balance sent
  let collected ← usub balance river.balance
  let balanceToDeposit ← (
    if collected > 0 then uadd river.balanceToDeposit collected
    else pure river.balanceToDeposit)
  return ({ river with
    balance := balance
    balanceToDeposit := balanceToDeposit }, collected)

/-- `_onEarnings` -/
def onEarnings (river : River) (amount : Nat) : Except Error River := do
  let oldTotalSupply := river.shares
  require (oldTotalSupply ≠ 0) .zeroMintedShares
  let newTotalBalance ← river.assetBalance
  let globalFee := river.config.globalFee.val
  let product ← umul amount oldTotalSupply
  let numerator ← umul product globalFee
  let scaledBalance ← umul newTotalBalance basisPointsMax
  let feeAmount ← umul amount globalFee
  let denominator ← usub scaledBalance feeAmount
  let sharesToMint ← (
    if denominator = 0 then pure 0 else udiv numerator denominator)
  if sharesToMint > 0 then do
    let river ← river.mintRawShares river.config.collector sharesToMint
    -- the old balance is only computed for the event
    let _ ← usub newTotalBalance amount
    return river
  else
    return river

/-- Rebalancing from the deposit to the redeem balance inside
`_requestExitsBasedOnRedeemDemandAfterRebalancings`. -/
def rebalance (river : River) (redeemManagerDemandInEth exitingBalance : Nat)
    (depositToRedeemRebalancingAllowed : Bool) : Except Error River :=
  if depositToRedeemRebalancingAllowed = true ∧
      river.balanceToDeposit > 0 then do
    let missing ← usub redeemManagerDemandInEth exitingBalance
    let missing ← usub missing river.balanceToRedeem
    let rebalancingAmount := LibUint256.min river.balanceToDeposit missing
    if rebalancingAmount > 0 then do
      let balanceToRedeem ← uadd river.balanceToRedeem rebalancingAmount
      let balanceToDeposit ← usub river.balanceToDeposit rebalancingAmount
      return { river with
        balanceToRedeem := balanceToRedeem
        balanceToDeposit := balanceToDeposit }
    else
      return river
  else
    return river

/-- `_skimExcessBalanceToRedeem` -/
def skimExcessBalanceToRedeem (river : River) : Except Error River :=
  if river.balanceToRedeem > 0 then do
    let balanceToDeposit ← uadd river.balanceToDeposit river.balanceToRedeem
    return { river with
      balanceToDeposit := balanceToDeposit
      balanceToRedeem := 0 }
  else
    return river

/-- `_commitBalanceToDeposit` -/
def commitBalanceToDeposit (river : River) (period : Nat)
    (slashingContainmentModeEnabled : Bool) : Except Error River :=
  if slashingContainmentModeEnabled then
    return river
  else do
    let underlyingAssetBalance ← river.assetBalance
    let dcl := river.config.dailyCommittableLimits
    let activated ← usub underlyingAssetBalance river.balanceToDeposit
    let product ← umul dcl.maxDailyRelativeCommittableAmount activated
    let relative ← udiv product basisPointsMax
    let currentMaxDailyCommittableAmount :=
      LibUint256.max dcl.minDailyNetCommittableAmount relative
    let scaled ← umul currentMaxDailyCommittableAmount period
    let perPeriod ← udiv scaled 86400
    let currentMaxCommittableAmount :=
      LibUint256.min perPeriod river.balanceToDeposit
    let validators ← udiv currentMaxCommittableAmount depositSize
    let committed ← umul validators depositSize
    if committed > 0 then do
      let committedBalance ← uadd river.committedBalance committed
      let balanceToDeposit ← usub river.balanceToDeposit committed
      return { river with
        committedBalance := committedBalance
        balanceToDeposit := balanceToDeposit }
    else
      return river

/-- Write a checked setting. -/
def setConfig (river : River) (sender : Address)
    (sanitized : Except Error Unit) (config : RiverConfig) :
    Except Error River := do
  river.config.administrable.onlyAdmin sender
  sanitized
  return { river with config := config }

def setDailyCommittableLimits (river : River) (sender : Address)
    (dcl : DailyCommittableLimits) : Except Error River :=
  river.setConfig sender (pure ())
    { river.config with dailyCommittableLimits := dcl }

def setKeeper (river : River) (sender keeper : Address) :
    Except Error River :=
  river.setConfig sender (notZeroAddress keeper)
    { river.config with keeper := keeper }

def setGlobalFee (river : River) (sender : Address) (newFee : Nat) :
    Except Error River := do
  river.config.administrable.onlyAdmin sender
  let globalFee ← validFee newFee
  return { river with config := { river.config with globalFee := globalFee } }

def setAllowlist (river : River) (sender newAllowlist : Address) :
    Except Error River :=
  river.setConfig sender (notZeroAddress newAllowlist)
    { river.config with allowlist := newAllowlist }

def setCollector (river : River) (sender newCollector : Address) :
    Except Error River :=
  river.setConfig sender (notZeroAddress newCollector)
    { river.config with collector := newCollector }

def setELFeeRecipient (river : River) (sender newELFeeRecipient : Address) :
    Except Error River :=
  river.setConfig sender (notZeroAddress newELFeeRecipient)
    { river.config with elFeeRecipient := newELFeeRecipient }

def setCoverageFund (river : River) (sender newCoverageFund : Address) :
    Except Error River :=
  river.setConfig sender (notZeroAddress newCoverageFund)
    { river.config with coverageFund := newCoverageFund }

def setMetadataURI (river : River) (sender : Address) (metadataURI : String) :
    Except Error River :=
  river.setConfig sender (notEmptyString metadataURI)
    { river.config with metadataURI := metadataURI }

def setOracle (river : River) (sender oracle : Address) :
    Except Error River :=
  river.setConfig sender (notZeroAddress oracle)
    { river.config with oracle := oracle }

def setCLSpec (river : River) (sender : Address) (newValue : CLSpec) :
    Except Error River :=
  river.setConfig sender (pure ()) { river.config with clSpec := newValue }

def setReportBounds (river : River) (sender : Address)
    (newValue : ReportBounds) : Except Error River :=
  river.setConfig sender (pure ())
    { river.config with reportBounds := newValue }

/-- A call that reaches no other contract but the allowlist. -/
inductive Call where
  | deposit (value : Nat)
  | depositAndTransfer (recipient : Address) (value : Nat)
  | transfer (recipient : Address) (value : Nat)
  | transferFrom (owner recipient : Address) (value : Nat)
  | approve (spender : Address) (value : Nat)
  | increaseAllowance (spender : Address) (additionalValue : Nat)
  | decreaseAllowance (spender : Address) (subtractableValue : Nat)
  | proposeAdmin (newAdmin : Address)
  | acceptAdmin
  | setDailyCommittableLimits (dcl : DailyCommittableLimits)
  | setKeeper (keeper : Address)
  | setGlobalFee (newFee : Nat)
  | setAllowlist (newAllowlist : Address)
  | setCollector (newCollector : Address)
  | setELFeeRecipient (newELFeeRecipient : Address)
  | setCoverageFund (newCoverageFund : Address)
  | setMetadataURI (metadataURI : String)
  | setOracle (oracle : Address)
  | setCLSpec (newValue : CLSpec)
  | setReportBounds (newValue : ReportBounds)

def Call.apply (call : Call) (river : River) (allowlist : Allowlist)
    (sender : Address) : Except Error River :=
  match call with
  | .deposit value => river.deposit allowlist sender value
  | .depositAndTransfer recipient value =>
    river.depositAndTransfer allowlist sender recipient value
  | .transfer recipient value =>
    river.transfer allowlist sender recipient value
  | .transferFrom owner recipient value =>
    river.transferFrom allowlist sender owner recipient value
  | .approve spender value => river.approve sender spender value
  | .increaseAllowance spender additionalValue =>
    river.increaseAllowance sender spender additionalValue
  | .decreaseAllowance spender subtractableValue =>
    river.decreaseAllowance sender spender subtractableValue
  | .proposeAdmin newAdmin => do
    let administrable ← river.config.administrable.proposeAdmin sender newAdmin
    return { river with
      config := { river.config with administrable := administrable } }
  | .acceptAdmin => do
    let administrable ← river.config.administrable.acceptAdmin sender
    return { river with
      config := { river.config with administrable := administrable } }
  | .setDailyCommittableLimits dcl =>
    river.setDailyCommittableLimits sender dcl
  | .setKeeper keeper => river.setKeeper sender keeper
  | .setGlobalFee newFee => river.setGlobalFee sender newFee
  | .setAllowlist newAllowlist => river.setAllowlist sender newAllowlist
  | .setCollector newCollector => river.setCollector sender newCollector
  | .setELFeeRecipient newELFeeRecipient =>
    river.setELFeeRecipient sender newELFeeRecipient
  | .setCoverageFund newCoverageFund =>
    river.setCoverageFund sender newCoverageFund
  | .setMetadataURI metadataURI => river.setMetadataURI sender metadataURI
  | .setOracle oracle => river.setOracle sender oracle
  | .setCLSpec newValue => river.setCLSpec sender newValue
  | .setReportBounds newValue => river.setReportBounds sender newValue

end River

end RiverProtocol
