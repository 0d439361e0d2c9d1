import RiverProtocol.Allowlist

/-!
# The operators registry contract

Operators are a list in array order and the stopped counts a list whose first
element is the total, as in storage.  `logs` keeps the emitted events that
carry validator keys.
-/

namespace RiverProtocol

open Checked Outcome

/-- `OperatorsV2.Operator` -/
structure Operator where
  limit : Nat
  funded : Nat
  requestedExits : Nat
  keys : Nat
  latestKeysEditBlockNumber : Nat
  active : Bool
  name : String
  operator : Address
  deriving DecidableEq, Repr

structure OperatorAllocation where
  operatorIndex : Nat
  validatorCount : Nat
  deriving DecidableEq, Repr

/-- The events of the registry that carry validator keys. -/
inductive RegistryLog where
  | fundedValidatorKeys (index : Nat) (publicKeys : List Bytes)
      (deferred : Bool)
  | removedValidatorKey (index : Nat) (publicKey : Bytes)
  deriving DecidableEq, Repr

structure OperatorsRegistry where
  administrable : Administrable
  operators : List Operator
  stoppedValidators : List Nat
  currentValidatorExitsDemand : Nat
  totalValidatorExitsRequested : Nat
  validatorKeys : Nat → Nat → Bytes
  logs : List RegistryLog

/-- `LibBytes.slice` -/
def sliceBytes (bytes : Bytes) (start length : Nat) : Except Error Bytes := do
  require (start + length ≤ bytes.length) .sliceOutOfBounds
  return (bytes.drop start).take length

namespace ValidatorKeys

/-- `PUBLIC_KEY_LENGTH` -/
def publicKeyLength : Nat := 48

/-- `SIGNATURE_LENGTH` -/
def signatureLength : Nat := 96

/-- The public key and the signature of a stored entry. -/
def split (entry : Bytes) : Except Error (Bytes × Bytes) := do
  let publicKey ← sliceBytes entry 0 publicKeyLength
  let signature ← sliceBytes entry publicKeyLength signatureLength
  return (publicKey, signature)

/-- `ValidatorKeys.getKeys` -/
def getKeys (entries : Nat → Bytes) (startIdx : Nat) :
    Nat → Except Error (List (Bytes × Bytes))
  | 0 => return []
  | amount + 1 => do
    let first ← split (entries startIdx)
    let rest ← getKeys entries (startIdx + 1) amount
    return first :: rest

/-- `ValidatorKeys.set` -/
def set (keys : Nat → Nat → Bytes) (operatorIndex idx : Nat)
    (publicKeyAndSignature : Bytes) : Nat → Nat → Bytes :=
  Function.update keys operatorIndex
    (Function.update (keys operatorIndex) idx publicKeyAndSignature)

end ValidatorKeys

namespace OperatorsRegistry

/-- Storage after the initializers. -/
def fresh (admin : Address) : OperatorsRegistry :=
  { administrable := { admin := admin, pendingAdmin := .zero }
    operators := []
    stoppedValidators := []
    currentValidatorExitsDemand := 0
    totalValidatorExitsRequested := 0
    validatorKeys := fun _ _ => []
    logs := [] }

/-- `OperatorsV2.get` -/
def getOperator (registry : OperatorsRegistry) (index : Nat) :
    Except Error Operator :=
  fetch registry.operators index (.operatorNotFound index)

def setOperator (registry : OperatorsRegistry) (index : Nat)
    (operator : Operator) : OperatorsRegistry :=
  { registry with operators := registry.operators.set index operator }

/-- `onlyOperatorOrAdmin` -/
def onlyOperatorOrAdmin (registry : OperatorsRegistry) (sender : Address)
    (index : Nat) : Except Error Unit :=
  if sender = registry.administrable.admin then
    return ()
  else do
    let operator ← registry.getOperator index
    require (operator.active = true) (.inactiveOperator index)
    require (sender = operator.operator) (.unauthorized sender)

/-- `addOperator`, with the index of the new operator. -/
def addOperator (registry : OperatorsRegistry)
    (sender : Address) (blockNumber : Nat) (name : String)
    (operator : Address) : Except Error (OperatorsRegistry × Nat) := do
  registry.administrable.onlyAdmin sender
  notZeroAddress operator
  notEmptyString name
  let newOperator : Operator :=
    { active := true, operator := operator, name := name, limit := 0,
      funded := 0, keys := 0, requestedExits := 0,
      latestKeysEditBlockNumber := toUint64 blockNumber }
  return ({ registry with
    operators := registry.operators ++ [newOperator] },
    registry.operators.length)

def setOperatorAddress (registry : OperatorsRegistry) (sender : Address)
    (index : Nat) (newOperatorAddress : Address) :
    Except Error OperatorsRegistry := do
  registry.onlyOperatorOrAdmin sender index
  notZeroAddress newOperatorAddress
  let operator ← registry.getOperator index
  return registry.setOperator index
    { operator with operator := newOperatorAddress }

def setOperatorName (registry : OperatorsRegistry) (sender : Address)
    (index : Nat) (newName : String) : Except Error OperatorsRegistry := do
  registry.onlyOperatorOrAdmin sender index
  notEmptyString newName
  let operator ← registry.getOperator index
  return registry.setOperator index { operator with name := newName }

def setOperatorStatus (registry : OperatorsRegistry) (sender : Address)
    (index : Nat) (newStatus : Bool) : Except Error OperatorsRegistry := do
  registry.administrable.onlyAdmin sender
  let operator ← registry.getOperator index
  return registry.setOperator index { operator with active := newStatus }

/-- Indexes must come in strictly increasing order. -/
def afterPrevious (previous : Option Nat) (index : Nat) : Prop :=
  ∀ last ∈ previous, last < index

instance (previous : Option Nat) (index : Nat) :
    Decidable (afterPrevious previous index) :=
  inferInstanceAs (Decidable (∀ last ∈ previous, last < index))

/-- The loop of `setOperatorLimits`. -/
def setEachLimit (snapshotBlock : Nat) : Option Nat → List (Nat × Nat) →
    OperatorsRegistry → Except Error OperatorsRegistry
  | _, [], registry => return registry
  | previous, (operatorIndex, newLimit) :: rest, registry => do
    require (afterPrevious previous operatorIndex) .unorderedOperatorList
    let operator ← registry.getOperator operatorIndex
    if newLimit = operator.limit then
      setEachLimit snapshotBlock (some operatorIndex) rest registry
    else if snapshotBlock < operator.latestKeysEditBlockNumber ∧
        newLimit > operator.limit then
      setEachLimit snapshotBlock (some operatorIndex) rest registry
    else do
      require (newLimit ≤ operator.keys)
        (.operatorLimitTooHigh operatorIndex newLimit operator.keys)
      require (operator.funded ≤ newLimit)
        (.operatorLimitTooLow operatorIndex newLimit operator.funded)
      setEachLimit snapshotBlock (some operatorIndex) rest
        (registry.setOperator operatorIndex
          { operator with limit := newLimit })

def setOperatorLimits (registry : OperatorsRegistry) (sender : Address)
    (operatorIndexes newLimits : List Nat) (snapshotBlock : Nat) :
    Except Error OperatorsRegistry := do
  registry.administrable.onlyAdmin sender
  require (operatorIndexes.length = newLimits.length) .invalidArrayLengths
  require (operatorIndexes.length ≠ 0) .invalidEmptyArray
  setEachLimit snapshotBlock none (operatorIndexes.zip newLimits) registry

/-- The loop of `addValidators`: store the next `count` entries of the
bytes. -/
def storeKeys (index : Nat) : (count totalKeys : Nat) → Bytes →
    (Nat → Nat → Bytes) → Except Error (Nat → Nat → Bytes)
  | 0, _, _, keys => return keys
  | count + 1, totalKeys, bytes, keys => do
    let entryLength :=
      ValidatorKeys.publicKeyLength + ValidatorKeys.signatureLength
    let publicKeyAndSignature ← sliceBytes bytes 0 entryLength
    storeKeys index count (totalKeys + 1) (bytes.drop entryLength)
      (ValidatorKeys.set keys index totalKeys publicKeyAndSignature)

def addValidators (registry : OperatorsRegistry) (sender : Address)
    (blockNumber index keyCount : Nat) (publicKeysAndSignatures : Bytes) :
    Except Error OperatorsRegistry := do
  registry.onlyOperatorOrAdmin sender index
  require (keyCount ≠ 0) .invalidKeyCount
  require (publicKeysAndSignatures.length = keyCount *
    (ValidatorKeys.publicKeyLength + ValidatorKeys.signatureLength))
    .invalidKeysLength
  let operator ← registry.getOperator index
  let validatorKeys ← storeKeys index keyCount operator.keys
    publicKeysAndSignatures registry.validatorKeys
  let keys ← uadd32 operator.keys keyCount
  return { registry.setOperator index { operator with
      keys := keys
      latestKeysEditBlockNumber := toUint64 blockNumber } with
    validatorKeys := validatorKeys }

/-- The loop of `removeValidators`: the entry of each listed index is replaced
by the last entry. -/
def removeEachKey (index totalKeys : Nat) : Option Nat → (idx : Nat) →
    List Nat → OperatorsRegistry → Except Error OperatorsRegistry
  | _, _, [], registry => return registry
  | previous, idx, keyIndex :: rest, registry => do
    require (∀ last ∈ previous, keyIndex < last) .invalidUnsortedIndexes
    let lastKeyIndex ← usub totalKeys (idx + 1)
    let (removedPublicKey, _) ←
      ValidatorKeys.split (registry.validatorKeys index keyIndex)
    let lastEntry := registry.validatorKeys index lastKeyIndex
    let replaced := ValidatorKeys.set registry.validatorKeys index keyIndex
      lastEntry
    removeEachKey index totalKeys (some keyIndex) (idx + 1) rest
      { registry with
        validatorKeys := ValidatorKeys.set replaced index lastKeyIndex []
        logs := registry.logs ++
          [.removedValidatorKey index removedPublicKey] }

def removeValidators (registry : OperatorsRegistry) (sender : Address)
    (blockNumber index : Nat) (indexes : List Nat) :
    Except Error OperatorsRegistry := do
  registry.onlyOperatorOrAdmin sender index
  require (indexes.length ≠ 0) .invalidKeyCount
  let operator ← registry.getOperator index
  let totalKeys := operator.keys
  let firstIndex ← fetch indexes 0 (.panic .outOfBounds)
  require (firstIndex < totalKeys) .invalidIndexOutOfBounds
  let lastIndex ← fetch indexes (indexes.length - 1) (.panic .outOfBounds)
  require (operator.funded ≤ lastIndex) .invalidFundedKeyDeletionAttempt
  let keys ← usub totalKeys (toUint32 indexes.length)
  let edited := { operator with
    keys := keys
    latestKeysEditBlockNumber := toUint64 blockNumber }
  let registry ← removeEachKey index totalKeys none 0 indexes
    (registry.setOperator index edited)
  if totalKeys = operator.limit then
    return registry.setOperator index { edited with limit := keys }
  else if lastIndex < operator.limit then
    return registry.setOperator index
      { edited with limit := toUint32 lastIndex }
  else
    return registry

/-- `_getStoppedValidatorsCount` -/
def getStoppedValidatorsCount (registry : OperatorsRegistry)
    (operatorIndex : Nat) : Nat :=
  (registry.stoppedValidators[operatorIndex + 1]?).getD 0

/-- `_getTotalStoppedValidatorCount` -/
def getTotalStoppedValidatorCount (registry : OperatorsRegistry) : Nat :=
  (registry.stoppedValidators[0]?).getD 0

/-- `getStoppedAndRequestedExitCounts` -/
def getStoppedAndRequestedExitCounts (registry : OperatorsRegistry) :
    Except Error (Nat × Nat) := do
  let requested ← uadd registry.totalValidatorExitsRequested
    registry.currentValidatorExitsDemand
  return (registry.getTotalStoppedValidatorCount, requested)

/-- `_getFundedCountForOperatorIfFundable` -/
def getFundedCountForOperatorIfFundable (registry : OperatorsRegistry)
    (operatorIndex validatorCount : Nat) : Except Error Nat := do
  let operator ← registry.getOperator operatorIndex
  require (operator.active = true) (.inactiveOperator operatorIndex)
  require (operator.requestedExits ≤
    registry.getStoppedValidatorsCount operatorIndex)
    (.operatorIgnoredExitRequests operatorIndex)
  let availableKeys ← usub operator.limit operator.funded
  require (validatorCount ≤ availableKeys)
    (.operatorHasInsufficientFundableKeys operatorIndex validatorCount
      availableKeys)
  return operator.funded

/-- The loop of `_getPerOperatorValidatorKeysForAllocations`. -/
def keysForEach (registry : OperatorsRegistry) : Option Nat →
    List OperatorAllocation → Except Error (List (List (Bytes × Bytes)))
  | _, [] => return []
  | previous, allocation :: rest => do
    require (afterPrevious previous allocation.operatorIndex)
      .unorderedOperatorList
    require (allocation.validatorCount ≠ 0) .allocationWithZeroValidatorCount
    let fundedCount ← registry.getFundedCountForOperatorIfFundable
      allocation.operatorIndex allocation.validatorCount
    let keys ← ValidatorKeys.getKeys
      (registry.validatorKeys allocation.operatorIndex) fundedCount
      allocation.validatorCount
    let others ← registry.keysForEach (some allocation.operatorIndex) rest
    return keys :: others

/-- `_getPerOperatorValidatorKeysForAllocations` -/
def getPerOperatorValidatorKeysForAllocations (registry : OperatorsRegistry)
    (allocations : List OperatorAllocation) :
    Except Error (List (List (Bytes × Bytes))) := do
  require (allocations.length ≠ 0) .invalidEmptyArray
  registry.keysForEach none allocations

/-- The loop of `pickNextValidatorsToDeposit` over the allocations and their
keys. -/
def fundEach : List (OperatorAllocation × List (Bytes × Bytes)) →
    OperatorsRegistry → Except Error OperatorsRegistry
  | [], registry => return registry
  | (allocation, keys) :: rest, registry => do
    let operator ← registry.getOperator allocation.operatorIndex
    let funded ← uadd32 operator.funded (toUint32 keys.length)
    let registry := registry.setOperator allocation.operatorIndex
      { operator with funded := funded }
    fundEach rest { registry with
      logs := registry.logs ++ [.fundedValidatorKeys allocation.operatorIndex
        (keys.map Prod.fst) false] }

/-- `pickNextValidatorsToDeposit`, called by River: the public keys with their
signatures. -/
def pickNextValidatorsToDeposit (registry : OperatorsRegistry)
    (allocations : List OperatorAllocation) :
    Except Error (OperatorsRegistry × List (Bytes × Bytes)) := do
  let perOperator ←
    registry.getPerOperatorValidatorKeysForAllocations allocations
  let registry ← fundEach (allocations.zip perOperator) registry
  return (registry, perOperator.flatten)

/-- The loop of `requestValidatorExits`, with the exits counted so far. -/
def requestEachExit : Option Nat → (requestedExitCount : Nat) →
    List OperatorAllocation → OperatorsRegistry →
    Except Error (OperatorsRegistry × Nat)
  | _, requestedExitCount, [], registry =>
    return (registry, requestedExitCount)
  | previous, requestedExitCount, allocation :: rest, registry => do
    let operatorIndex := allocation.operatorIndex
    let count := allocation.validatorCount
    require (count ≠ 0) .allocationWithZeroValidatorCount
    require (afterPrevious previous operatorIndex) .unorderedOperatorList
    let requestedExitCount ← uadd requestedExitCount count
    let operator ← registry.getOperator operatorIndex
    require (operator.active = true) (.inactiveOperator operatorIndex)
    let available ← usub operator.funded operator.requestedExits
    require (count ≤ available)
      (.exitsRequestedExceedAvailableFundedCount operatorIndex count
        available)
    let requestedExits ← uadd32 operator.requestedExits (toUint32 count)
    requestEachExit (some operatorIndex) requestedExitCount rest
      (registry.setOperator operatorIndex
        { operator with requestedExits := requestedExits })

/-- `requestValidatorExits`, with the keeper River knows. -/
def requestValidatorExits (registry : OperatorsRegistry)
    (keeper sender : Address) (allocations : List OperatorAllocation) :
    Except Error OperatorsRegistry := do
  require (sender = keeper) .onlyKeeper
  require (registry.currentValidatorExitsDemand ≠ 0) .noExitRequestsToPerform
  require (allocations.length ≠ 0) .invalidEmptyArray
  let (registry, requestedExitCount) ← requestEachExit none 0 allocations
    registry
  require (requestedExitCount ≤ registry.currentValidatorExitsDemand)
    (.exitsRequestedExceedDemand requestedExitCount
      registry.currentValidatorExitsDemand)
  let demand ← usub registry.currentValidatorExitsDemand requestedExitCount
  let total ← uadd registry.totalValidatorExitsRequested requestedExitCount
  return { registry with
    totalValidatorExitsRequested := total
    currentValidatorExitsDemand := demand }

/-- `demandValidatorExits`, called by River. -/
def demandValidatorExits (registry : OperatorsRegistry)
    (count depositedValidatorCount : Nat) :
    Except Error OperatorsRegistry := do
  let requested ← uadd registry.totalValidatorExitsRequested
    registry.currentValidatorExitsDemand
  let room ← usub depositedValidatorCount requested
  let count := LibUint256.min count room
  if count > 0 then do
    let demand ← uadd registry.currentValidatorExitsDemand count
    return { registry with currentValidatorExitsDemand := demand }
  else
    return registry

/-- What the loops of `_setStoppedValidatorCounts` accumulate. -/
structure StoppedLoop where
  operators : List Operator
  unsolicitedExitsSum : Nat
  count : Nat

/-- The body of both loops for the operator at `index`. -/
def stopOne (loop : StoppedLoop) (index stoppedCount : Nat) :
    Except Error StoppedLoop := do
  let operator ← fetch loop.operators index (.panic .outOfBounds)
  require (stoppedCount ≤ operator.funded)
    (.stoppedValidatorCountAboveFundedCount index stoppedCount
      operator.funded)
  let (operators, unsolicitedExitsSum) ← (
    if stoppedCount > operator.requestedExits then do
      let unsolicited ← usub stoppedCount operator.requestedExits
      let sum ← uadd loop.unsolicitedExitsSum unsolicited
      let stopped := { operator with requestedExits := stoppedCount }
      return (loop.operators.set index stopped, sum)
    else
      return (loop.operators, loop.unsolicitedExitsSum))
  let count ← uadd32 loop.count stoppedCount
  return { operators := operators, unsolicitedExitsSum := unsolicitedExitsSum,
           count := count }

/-- The two loops of `_setStoppedValidatorCounts`: where the stored array is
long enough, the first loop also checks that the count does not decrease. -/
def stopEach : (index : Nat) → (counts current : List Nat) → StoppedLoop →
    Except Error StoppedLoop
  | _, [], _, loop => return loop
  | index, stoppedCount :: counts, [], loop => do
    let loop ← stopOne loop index stoppedCount
    stopEach (index + 1) counts [] loop
  | index, stoppedCount :: counts, currentCount :: current, loop => do
    require (currentCount ≤ stoppedCount) .stoppedValidatorCountsDecreased
    let loop ← stopOne loop index stoppedCount
    stopEach (index + 1) counts current loop

/-- `reportStoppedValidatorCounts`, called by River. -/
def reportStoppedValidatorCounts (registry : OperatorsRegistry)
    (stoppedValidatorCounts : List Nat) (depositedValidatorCount : Nat) :
    Except Error OperatorsRegistry :=
  match stoppedValidatorCounts with
  | [] => .error .invalidEmptyStoppedValidatorCountsArray
  | totalStoppedValidatorCount :: counts => do
    require (counts.length ≤ registry.operators.length)
      .stoppedValidatorCountsTooHigh
    require (registry.stoppedValidators.length ≤ counts.length + 1)
      .stoppedValidatorCountArrayShrinking
    let loop ← stopEach 0 counts registry.stoppedValidators.tail
      { operators := registry.operators
        unsolicitedExitsSum := 0
        count := 0 }
    let totalRequestedExits ← uadd registry.totalValidatorExitsRequested
      loop.unsolicitedExitsSum
    let demand ← usub registry.currentValidatorExitsDemand
      (LibUint256.min loop.unsolicitedExitsSum
        registry.currentValidatorExitsDemand)
    require (totalStoppedValidatorCount = loop.count)
      .invalidStoppedValidatorCountsSum
    require (totalStoppedValidatorCount ≤ depositedValidatorCount)
      .stoppedValidatorCountsTooHigh
    return { registry with
      operators := loop.operators
      totalValidatorExitsRequested := totalRequestedExits
      currentValidatorExitsDemand := demand
      stoppedValidators := totalStoppedValidatorCount :: counts }

/-- A call by which the administrator or an operator manages the registry. -/
inductive Call where
  | proposeAdmin (newAdmin : Address)
  | acceptAdmin
  | addOperator (name : String) (operator : Address)
  | setOperatorAddress (index : Nat) (newOperatorAddress : Address)
  | setOperatorName (index : Nat) (newName : String)
  | setOperatorStatus (index : Nat) (newStatus : Bool)
  | setOperatorLimits (operatorIndexes newLimits : List Nat)
      (snapshotBlock : Nat)
  | addValidators (index keyCount : Nat) (publicKeysAndSignatures : Bytes)
  | removeValidators (index : Nat) (indexes : List Nat)

def Call.apply (call : Call) (registry : OperatorsRegistry)
    (sender : Address) (blockNumber : Nat) : Except Error OperatorsRegistry :=
  match call with
  | .proposeAdmin newAdmin => do
    let administrable ← registry.administrable.proposeAdmin sender newAdmin
    return { registry with administrable := administrable }
  | .acceptAdmin => do
    let administrable ← registry.administrable.acceptAdmin sender
    return { registry with administrable := administrable }
  | .addOperator name operator => do
    let (registry, _) ← registry.addOperator sender blockNumber name operator
    return registry
  | .setOperatorAddress index newOperatorAddress =>
    registry.setOperatorAddress sender index newOperatorAddress
  | .setOperatorName index newName =>
    registry.setOperatorName sender index newName
  | .setOperatorStatus index newStatus =>
    registry.setOperatorStatus sender index newStatus
  | .setOperatorLimits operatorIndexes newLimits snapshotBlock =>
    registry.setOperatorLimits sender operatorIndexes newLimits snapshotBlock
  | .addValidators index keyCount publicKeysAndSignatures =>
    registry.addValidators sender blockNumber index keyCount
      publicKeysAndSignatures
  | .removeValidators index indexes =>
    registry.removeValidators sender blockNumber index indexes

end OperatorsRegistry

end RiverProtocol
