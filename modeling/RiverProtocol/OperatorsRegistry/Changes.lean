import RiverProtocol.Lib.SwapRemove
import RiverProtocol.OperatorsRegistry.Steps

/-!
# What an action does to one operator

An action is a call of the registry with its arguments.  What an action can do
to one operator, its entries and its stopped count is said once, by `Change`.
-/

namespace RiverProtocol

open Checked Outcome Lists

open SwapRemove (Removable removeAt removeEach)

/-- The bytes of a key and its signature. -/
def ValidatorKeys.entryLength : Nat := publicKeyLength + signatureLength

/-- The entry laid out at a position of the bytes given to `addValidators`. -/
def ValidatorKeys.entryAt (bytes : Bytes) (position : Nat) : Bytes :=
  (bytes.drop (entryLength * position)).take entryLength

theorem ValidatorKeys.set_other {keys : Nat → Nat → Bytes}
    {index other idx : Nat} {entry : Bytes} (different : other ≠ index) :
    ValidatorKeys.set keys index idx entry other = keys other :=
  Function.update_of_ne different _ _

theorem ValidatorKeys.set_written {keys : Nat → Nat → Bytes}
    {index idx : Nat} {entry : Bytes} :
    ValidatorKeys.set keys index idx entry index idx = entry := by
  rw [ValidatorKeys.set, Function.update_self, Function.update_self]

theorem ValidatorKeys.set_kept {keys : Nat → Nat → Bytes}
    {index idx position : Nat} {entry : Bytes} (different : position ≠ idx) :
    ValidatorKeys.set keys index idx entry index position =
      keys index position := by
  rw [ValidatorKeys.set, Function.update_self,
    Function.update_of_ne different]

theorem ValidatorKeys.set_removeAt {keys : Nat → Nat → Bytes}
    {index first count : Nat} :
    ValidatorKeys.set
        (ValidatorKeys.set keys index first (keys index (count - 1)))
        index (count - 1) [] =
      Function.update keys index
        (SwapRemove.removeAt [] (keys index) count first) := by
  rw [ValidatorKeys.set, ValidatorKeys.set, Function.update_self,
    Function.update_idem, SwapRemove.removeAt]

namespace OperatorsRegistry

open ValidatorKeys (entryLength entryAt)

inductive Action where
  | manage (sender : Address) (call : Call)
  | pickNextValidatorsToDeposit (allocations : List OperatorAllocation)
  | requestValidatorExits (keeper sender : Address)
      (allocations : List OperatorAllocation)
  | demandValidatorExits (count depositedValidatorCount : Nat)
  | reportStoppedValidatorCounts (stoppedValidatorCounts : List Nat)
      (depositedValidatorCount : Nat)

/-- The registry after an action in a block, and the validators it returns. -/
def Action.apply (action : Action) (registry : OperatorsRegistry)
    (blockNumber : Nat) :
    Except Error (OperatorsRegistry × List (Bytes × Bytes)) :=
  match action with
  | .manage sender call => do
    let registry ← call.apply registry sender blockNumber
    return (registry, [])
  | .pickNextValidatorsToDeposit allocations =>
    registry.pickNextValidatorsToDeposit allocations
  | .requestValidatorExits keeper sender allocations => do
    let registry ← registry.requestValidatorExits keeper sender allocations
    return (registry, [])
  | .demandValidatorExits count depositedValidatorCount => do
    let registry ← registry.demandValidatorExits count depositedValidatorCount
    return (registry, [])
  | .reportStoppedValidatorCounts counts depositedValidatorCount => do
    let registry ← registry.reportStoppedValidatorCounts counts
      depositedValidatorCount
    return (registry, [])

/-- One successful action. -/
def Step (registry after : OperatorsRegistry) : Prop :=
  ∃ (action : Action) (blockNumber : Nat) (validators : List (Bytes × Bytes)),
    action.apply registry blockNumber = .ok (after, validators)

/-- States a fresh registry reaches by any run of actions. -/
def Reachable (registry : OperatorsRegistry) : Prop :=
  ∃ admin, Relation.ReflTransGen Step (fresh admin) registry

/-- An operator with its entries and its stopped count. -/
structure Holding where
  operator : Operator
  entries : Nat → Bytes
  stopped : Nat

def holding (registry : OperatorsRegistry) (index : Nat) : Option Holding :=
  registry.operators[index]?.map fun operator =>
    { operator := operator
      entries := registry.validatorKeys index
      stopped := registry.getStoppedValidatorsCount index }

/-- What an action in a block can do to the operator with this index. -/
inductive Change (blockNumber index : Nat) :
    Action → Holding → Holding → Prop where
  | renamed {action : Action} {holding : Holding} {operator : Operator} :
      operator.limit = holding.operator.limit →
      operator.funded = holding.operator.funded →
      operator.requestedExits = holding.operator.requestedExits →
      operator.keys = holding.operator.keys →
      operator.latestKeysEditBlockNumber =
        holding.operator.latestKeysEditBlockNumber →
      Change blockNumber index action holding
        { holding with operator := operator }
  | limited {sender : Address} {operatorIndexes newLimits : List Nat}
      {snapshotBlock newLimit : Nat} {holding : Holding} :
      newLimit ≤ holding.operator.keys →
      holding.operator.funded ≤ newLimit →
      (holding.operator.limit < newLimit →
        holding.operator.latestKeysEditBlockNumber ≤ snapshotBlock) →
      Change blockNumber index
        (.manage sender
          (.setOperatorLimits operatorIndexes newLimits snapshotBlock))
        holding { holding with
          operator := { holding.operator with limit := newLimit } }
  | keysAdded {sender : Address} {keyCount : Nat} {bytes : Bytes}
      {holding : Holding} {entries : Nat → Bytes} :
      bytes.length = keyCount * entryLength →
      holding.operator.keys + keyCount < uint32Limit →
      (∀ position, entries position =
        if holding.operator.keys ≤ position ∧
            position < holding.operator.keys + keyCount then
          entryAt bytes (position - holding.operator.keys)
        else holding.entries position) →
      Change blockNumber index
        (.manage sender (.addValidators index keyCount bytes))
        holding { holding with
          entries := entries
          operator := { holding.operator with
            keys := holding.operator.keys + keyCount
            latestKeysEditBlockNumber := toUint64 blockNumber } }
  | keysRemoved {sender : Address} {indexes : List Nat}
      {lastIndex keys limit : Nat} {holding : Holding}
      {entries : Nat → Bytes} :
      holding.operator.funded ≤ lastIndex → lastIndex ≤ keys →
      keys + indexes.length = holding.operator.keys →
      (∀ position < lastIndex, entries position = holding.entries position) →
      (∀ position < keys, ∃ origin < holding.operator.keys,
        entries position = holding.entries origin) →
      (limit = if holding.operator.keys = holding.operator.limit then keys
        else if lastIndex < holding.operator.limit then lastIndex
        else holding.operator.limit) →
      Change blockNumber index
        (.manage sender (.removeValidators index indexes))
        holding { holding with
          entries := entries
          operator := { holding.operator with
            keys := keys
            limit := limit
            latestKeysEditBlockNumber := toUint64 blockNumber } }
  | funded {allocations : List OperatorAllocation} {count : Nat}
      {holding : Holding} :
      holding.operator.funded + count ≤ holding.operator.limit →
      Change blockNumber index (.pickNextValidatorsToDeposit allocations)
        holding { holding with
          operator := { holding.operator with
            funded := holding.operator.funded + count } }
  | exitsRequested {keeper sender : Address}
      {allocations : List OperatorAllocation} {count : Nat}
      {holding : Holding} :
      holding.operator.requestedExits + count ≤ holding.operator.funded →
      Change blockNumber index
        (.requestValidatorExits keeper sender allocations)
        holding { holding with
          operator := { holding.operator with
            requestedExits := holding.operator.requestedExits + count } }
  | stopped {counts : List Nat} {deposited stoppedCount : Nat}
      {holding : Holding} :
      holding.stopped ≤ stoppedCount →
      stoppedCount ≤ holding.operator.funded →
      Change blockNumber index (.reportStoppedValidatorCounts counts deposited)
        holding { holding with
          stopped := stoppedCount
          operator := { holding.operator with
            requestedExits :=
              max holding.operator.requestedExits stoppedCount } }

/-- The counters in order, and their widths. -/
structure Holding.Tiered (holding : Holding) : Prop where
  keys_lt : holding.operator.keys < uint32Limit
  limit_le : holding.operator.limit ≤ holding.operator.keys
  funded_le : holding.operator.funded ≤ holding.operator.limit
  requested_le : holding.operator.requestedExits ≤ holding.operator.funded
  stopped_le : holding.stopped ≤ holding.operator.requestedExits

theorem Change.tiered {blockNumber index : Nat} {action : Action}
    {holding later : Holding}
    (change : Change blockNumber index action holding later)
    (tiered : holding.Tiered) : later.Tiered := by
  obtain ⟨keys_lt, limit_le, funded_le, requested_le, stopped_le⟩ := tiered
  cases change with
  | renamed limit funded requested keys latest =>
      constructor <;> simp only [limit, funded, requested, keys] <;>
        assumption
  | limited belowKeys aboveFunded guarded =>
      exact ⟨keys_lt, belowKeys, aboveFunded, requested_le, stopped_le⟩
  | keysAdded length fits laidOut =>
      exact ⟨fits, limit_le.trans (Nat.le_add_right _ _), funded_le,
        requested_le, stopped_le⟩
  | keysRemoved funded inside count kept moved limit =>
      refine ⟨?_, ?_, ?_, requested_le, stopped_le⟩
      · dsimp only
        omega
      · dsimp only
        split at limit
        · omega
        · split at limit <;> omega
      · dsimp only
        split at limit
        · omega
        · split at limit <;> omega
  | funded room =>
      exact ⟨keys_lt, limit_le, room, requested_le.trans
        (Nat.le_add_right _ _), stopped_le⟩
  | exitsRequested room =>
      exact ⟨keys_lt, limit_le, funded_le, room, stopped_le.trans
        (Nat.le_add_right _ _)⟩
  | stopped grown bounded =>
      exact ⟨keys_lt, limit_le, funded_le, max_le requested_le bounded,
        le_max_right _ _⟩

/-- Each operator changes as the relation allows, and none is added. -/
structure Edits (change : Nat → Holding → Holding → Prop)
    (registry after : OperatorsRegistry) : Prop where
  length_eq : after.operators.length = registry.operators.length
  changed : ∀ index holding, registry.holding index = some holding →
    ∃ later, after.holding index = some later ∧
      Relation.ReflTransGen (change index) holding later

section Edits

variable {registry middle after : OperatorsRegistry}
  {change : Nat → Holding → Holding → Prop}

theorem Edits.refl : Edits change registry registry where
  length_eq := rfl
  changed _ holding found := ⟨holding, found, .refl⟩

theorem Edits.trans (first : Edits change registry middle)
    (second : Edits change middle after) : Edits change registry after where
  length_eq := second.length_eq.trans first.length_eq
  changed index holding found := by
    obtain ⟨next, foundNext, before⟩ := first.changed index holding found
    obtain ⟨later, foundLater, rest⟩ := second.changed index next foundNext
    exact ⟨later, foundLater, before.trans rest⟩

theorem Edits.of_same (operators : after.operators = registry.operators)
    (entries : after.validatorKeys = registry.validatorKeys)
    (stopped : after.stoppedValidators = registry.stoppedValidators) :
    Edits change registry after where
  length_eq := by rw [operators]
  changed index holding found := by
    refine ⟨holding, ?_, .refl⟩
    rw [← found, OperatorsRegistry.holding, OperatorsRegistry.holding,
      operators, entries, getStoppedValidatorsCount,
      getStoppedValidatorsCount, stopped]

/-- One operator and its entries are written. -/
theorem Edits.of_set {index : Nat} {operator edited : Operator}
    (found : registry.operators[index]? = some operator)
    (operators : after.operators = registry.operators.set index edited)
    (entries : ∀ other ≠ index,
      after.validatorKeys other = registry.validatorKeys other)
    (stopped : after.stoppedValidators = registry.stoppedValidators)
    (changes : change index
      { operator := operator
        entries := registry.validatorKeys index
        stopped := registry.getStoppedValidatorsCount index }
      { operator := edited
        entries := after.validatorKeys index
        stopped := registry.getStoppedValidatorsCount index }) :
    Edits change registry after where
  length_eq := by rw [operators, List.length_set]
  changed position holding held := by
    have counted : after.getStoppedValidatorsCount position =
        registry.getStoppedValidatorsCount position := by
      rw [getStoppedValidatorsCount, getStoppedValidatorsCount, stopped]
    by_cases same : position = index
    · subst same
      simp only [OperatorsRegistry.holding, found, Option.map_some,
        Option.some.injEq] at held
      subst held
      refine ⟨_, ?_, .single changes⟩
      rw [OperatorsRegistry.holding, operators, counted,
        List.getElem?_set_self (List.getElem?_eq_some_iff.mp found).1]
      rfl
    · refine ⟨holding, ?_, .refl⟩
      rw [← held, OperatorsRegistry.holding, OperatorsRegistry.holding,
        operators, counted, List.getElem?_set_ne (Ne.symm same),
        entries position same]

/-- Every operator is written and the entries are kept. -/
theorem Edits.of_each
    (length : after.operators.length = registry.operators.length)
    (entries : after.validatorKeys = registry.validatorKeys)
    (each : ∀ (index : Nat) (operator : Operator),
      registry.operators[index]? = some operator →
      ∃ edited, after.operators[index]? = some edited ∧ change index
        { operator := operator
          entries := registry.validatorKeys index
          stopped := registry.getStoppedValidatorsCount index }
        { operator := edited
          entries := registry.validatorKeys index
          stopped := after.getStoppedValidatorsCount index }) :
    Edits change registry after where
  length_eq := length
  changed index holding held := by
    rw [OperatorsRegistry.holding, Option.map_eq_some_iff] at held
    obtain ⟨operator, found, rfl⟩ := held
    obtain ⟨edited, foundAfter, changes⟩ := each index operator found
    refine ⟨_, ?_, .single changes⟩
    rw [OperatorsRegistry.holding, foundAfter, entries]
    rfl

end Edits

/-- Every operator has its counters in order, and the stopped counts add up. -/
structure Tiered (registry : OperatorsRegistry) : Prop where
  holdings : ∀ index holding, registry.holding index = some holding →
    holding.Tiered
  stopped_length :
    registry.stoppedValidators.length ≤ registry.operators.length + 1
  stopped_sum : ∀ total counts,
    registry.stoppedValidators = total :: counts → total = counts.sum

theorem tiered_fresh (admin : Address) : Tiered (fresh admin) where
  holdings := by simp [OperatorsRegistry.holding, fresh]
  stopped_length := by simp [fresh]
  stopped_sum := by simp [fresh]

theorem Tiered.of_found {registry : OperatorsRegistry} {index : Nat}
    {operator : Operator} (tiered : registry.Tiered)
    (found : registry.operators[index]? = some operator) :
    Holding.Tiered
      { operator := operator
        entries := registry.validatorKeys index
        stopped := registry.getStoppedValidatorsCount index } := by
  apply tiered.holdings index
  rw [OperatorsRegistry.holding, found]
  rfl

section Manage

variable {registry after : OperatorsRegistry} {sender : Address}
  {blockNumber : Nat}

theorem renamed_edits {index : Nat} {operator edited : Operator}
    {action : Action} (found : registry.operators[index]? = some operator)
    (limit : edited.limit = operator.limit)
    (funded : edited.funded = operator.funded)
    (requested : edited.requestedExits = operator.requestedExits)
    (keys : edited.keys = operator.keys)
    (latest : edited.latestKeysEditBlockNumber =
      operator.latestKeysEditBlockNumber) :
    Edits (Change blockNumber · action) registry
      (registry.setOperator index edited) :=
  .of_set found rfl (fun _ _ => rfl) rfl
    (.renamed limit funded requested keys latest)

theorem setEachLimit_edits {operatorIndexes newLimits : List Nat}
    {snapshotBlock : Nat} {previous : Option Nat} {limits : List (Nat × Nat)}
    (returned : setEachLimit snapshotBlock previous limits registry =
      .ok after) :
    Edits (Change blockNumber · (.manage sender
      (.setOperatorLimits operatorIndexes newLimits snapshotBlock)))
      registry after := by
  induction limits generalizing previous registry with
  | nil =>
      simp only [setEachLimit, pure_eq_ok] at returned
      subst returned
      exact .refl
  | cons first rest induction =>
      obtain ⟨operator, found,
        same | ⟨belowKeys, aboveFunded, unedited, written⟩⟩ :=
        setEachLimit_cons returned
      · exact induction same
      · have change : Edits (Change blockNumber · (.manage sender
            (.setOperatorLimits operatorIndexes newLimits snapshotBlock)))
            registry (registry.setOperator first.1
              { operator with limit := first.2 }) :=
          .of_set found rfl (fun _ _ => rfl) rfl
            (.limited belowKeys aboveFunded unedited)
        exact change.trans (induction written)

theorem sliceBytes_eq_ok {bytes part : Bytes} {start length : Nat} :
    sliceBytes bytes start length = .ok part ↔
      start + length ≤ bytes.length ∧
        (bytes.drop start).take length = part := by
  simp only [sliceBytes, bind_eq_ok, require_eq_ok, pure_eq_ok, exists_const]

theorem split_eq_ok {entry publicKey signature : Bytes} :
    ValidatorKeys.split entry = .ok (publicKey, signature) ↔
      entryLength ≤ entry.length ∧
        entry.take ValidatorKeys.publicKeyLength = publicKey ∧
        (entry.drop ValidatorKeys.publicKeyLength).take
          ValidatorKeys.signatureLength = signature := by
  simp only [ValidatorKeys.split, bind_eq_ok, pure_eq_ok, sliceBytes_eq_ok,
    Prod.mk.injEq, entryLength, ValidatorKeys.publicKeyLength,
    ValidatorKeys.signatureLength, List.drop_zero]
  constructor
  · rintro ⟨key, ⟨-, rfl⟩, rest, ⟨long, rfl⟩, same⟩
    exact ⟨long, same⟩
  · rintro ⟨long, rfl, rfl⟩
    exact ⟨_, ⟨by omega, rfl⟩, _, ⟨long, rfl⟩, rfl, rfl⟩

theorem entryAt_inside {bytes : Bytes} {keyCount position : Nat}
    (length : bytes.length = keyCount * entryLength)
    (within : position < keyCount) :
    entryLength * position + entryLength ≤ bytes.length := by
  rw [length, ← Nat.mul_succ, Nat.mul_comm]
  exact Nat.mul_le_mul_right _ within

theorem entryAt_succ (bytes : Bytes) (position : Nat) :
    entryAt (bytes.drop entryLength) position =
      entryAt bytes (position + 1) := by
  rw [entryAt, entryAt, List.drop_drop, Nat.mul_succ, Nat.add_comm]

/-- The entries are stored one after another behind the present ones. -/
theorem storeKeys_ok {index count totalKeys : Nat} {bytes : Bytes}
    {keys stored : Nat → Nat → Bytes}
    (returned : storeKeys index count totalKeys bytes keys = .ok stored) :
    (∀ other ≠ index, stored other = keys other) ∧
      ∀ position, stored index position =
        if totalKeys ≤ position ∧ position < totalKeys + count then
          entryAt bytes (position - totalKeys)
        else keys index position := by
  induction count generalizing totalKeys bytes keys with
  | zero =>
      simp only [storeKeys, pure_eq_ok] at returned
      subst returned
      refine ⟨fun _ _ => rfl, fun position => ?_⟩
      rw [if_neg (by omega)]
  | succ count induction =>
      simp only [storeKeys, bind_eq_ok] at returned
      obtain ⟨entry, sliced, rest⟩ := returned
      obtain ⟨-, rfl⟩ := sliceBytes_eq_ok.mp sliced
      obtain ⟨others, laidOut⟩ := induction rest
      refine ⟨?_, ?_⟩
      · intro other different
        rw [others other different, ValidatorKeys.set_other different]
      · intro position
        rw [laidOut position]
        by_cases first : position = totalKeys
        · subst first
          rw [if_neg (by omega), ValidatorKeys.set_written,
            if_pos (by omega), Nat.sub_self, entryAt, Nat.mul_zero]
          rfl
        · rw [ValidatorKeys.set_kept first]
          by_cases later : totalKeys ≤ position ∧
              position < totalKeys + (count + 1)
          · have shifted : position - totalKeys =
                position - (totalKeys + 1) + 1 := by omega
            rw [if_pos (by omega), if_pos later, shifted, ← entryAt_succ]
            rfl
          · rw [if_neg (by omega), if_neg later]

theorem addValidators_edits {index keyCount : Nat} {bytes : Bytes}
    (returned : registry.addValidators sender blockNumber index keyCount
      bytes = .ok after) :
    Edits (Change blockNumber ·
      (.manage sender (.addValidators index keyCount bytes)))
      registry after := by
  simp only [addValidators, getOperator, bind_eq_ok, require_eq_ok,
    fetch_eq_ok, uadd32_eq_ok, pure_eq_ok] at returned
  obtain ⟨-, -, -, -, -, length, operator, found, stored, storing, keys,
    ⟨fits, rfl⟩, rfl⟩ := returned
  obtain ⟨others, laidOut⟩ := storeKeys_ok storing
  exact .of_set found rfl others rfl (.keysAdded length fits laidOut)

/-- The registry without the listed ones of `count` entries. -/
def withoutKeys (registry : OperatorsRegistry) (index count : Nat)
    (indexes : List Nat) : OperatorsRegistry :=
  { registry with
    validatorKeys := Function.update registry.validatorKeys index
      (removeEach [] (registry.validatorKeys index) count indexes)
    logs := registry.logs ++ indexes.map fun keyIndex =>
      .removedValidatorKey index
        ((registry.validatorKeys index keyIndex).take
          ValidatorKeys.publicKeyLength) }

theorem withoutKeys_nil {index count : Nat} :
    registry.withoutKeys index count [] = registry := by
  simp only [withoutKeys, removeEach, Function.update_eq_self, List.map_nil,
    List.append_nil]

theorem withoutKeys_other {index other count : Nat} {indexes : List Nat}
    (different : other ≠ index) :
    (registry.withoutKeys index count indexes).validatorKeys other =
      registry.validatorKeys other :=
  Function.update_of_ne different _ _

theorem withoutKeys_self {index count : Nat} {indexes : List Nat} :
    (registry.withoutKeys index count indexes).validatorKeys index =
      removeEach [] (registry.validatorKeys index) count indexes :=
  Function.update_self _ _ _

theorem withoutKeys_later {index count first next : Nat} {rest : List Nat}
    (removable : Removable count (first :: rest)) (later : next ∈ rest) :
    (registry.withoutKeys index count [first]).validatorKeys index next =
      registry.validatorKeys index next := by
  rw [withoutKeys_self]
  exact SwapRemove.removeAt_later removable later

theorem withoutKeys_cons {index count first : Nat} {rest : List Nat}
    (removable : Removable count (first :: rest)) :
    (registry.withoutKeys index count [first]).withoutKeys index (count - 1)
      rest = registry.withoutKeys index count (first :: rest) := by
  have emitted : rest.map (fun keyIndex => RegistryLog.removedValidatorKey
        index (((registry.withoutKeys index count [first]).validatorKeys index
          keyIndex).take ValidatorKeys.publicKeyLength)) =
      rest.map fun keyIndex => RegistryLog.removedValidatorKey index
        ((registry.validatorKeys index keyIndex).take
          ValidatorKeys.publicKeyLength) := by
    refine List.map_congr_left fun next later => ?_
    rw [withoutKeys_later removable later]
  rw [withoutKeys, emitted, withoutKeys_self, withoutKeys, withoutKeys]
  simp only [Function.update_idem, List.map_cons, List.map_nil,
    List.append_assoc, List.singleton_append, removeEach]

theorem removeEachKey_cons {index totalKeys idx keyIndex : Nat}
    {previous : Option Nat} {rest : List Nat} :
    removeEachKey index totalKeys previous idx (keyIndex :: rest) registry =
        .ok after ↔
      (∀ last ∈ previous, keyIndex < last) ∧ idx + 1 ≤ totalKeys ∧
      entryLength ≤ (registry.validatorKeys index keyIndex).length ∧
      removeEachKey index totalKeys (some keyIndex) (idx + 1) rest
        (registry.withoutKeys index (totalKeys - idx) [keyIndex]) =
          .ok after := by
  simp only [removeEachKey, bind_eq_ok, require_eq_ok, usub_eq_ok,
    Prod.exists, split_eq_ok]
  have last : totalKeys - (idx + 1) = totalKeys - idx - 1 := rfl
  constructor
  · rintro ⟨-, descending, lastKeyIndex, ⟨enough, rfl⟩, publicKey, signature,
      ⟨long, rfl, rfl⟩, returned⟩
    rw [last, ValidatorKeys.set_removeAt] at returned
    exact ⟨descending, enough, long, returned⟩
  · rintro ⟨descending, enough, long, returned⟩
    refine ⟨(), descending, _, ⟨enough, rfl⟩, _, _, ⟨long, rfl, rfl⟩, ?_⟩
    rw [last, ValidatorKeys.set_removeAt]
    exact returned

theorem removeEachKey_descends {index totalKeys idx first : Nat}
    {rest : List Nat}
    (returned : removeEachKey index totalKeys (some first) idx rest registry =
      .ok after) : ∀ next ∈ rest.head?, next < first := by
  intro next member
  cases rest with
  | nil => cases member
  | cons second others =>
      obtain rfl : second = next := Option.some.inj member
      exact (removeEachKey_cons.mp returned).1 first rfl

/-- The loop accepts strictly descending positions of whole entries, and
removes them. -/
theorem removeEachKey_eq_ok {index totalKeys idx : Nat}
    {previous : Option Nat} {indexes : List Nat}
    (inside : ∀ first ∈ indexes.head?, first < totalKeys - idx) :
    removeEachKey index totalKeys previous idx indexes registry =
        .ok after ↔
      (∀ first ∈ indexes.head?, ∀ last ∈ previous, first < last) ∧
      Removable (totalKeys - idx) indexes ∧
      (∀ keyIndex ∈ indexes,
        entryLength ≤ (registry.validatorKeys index keyIndex).length) ∧
      registry.withoutKeys index (totalKeys - idx) indexes = after := by
  induction indexes generalizing previous idx registry with
  | nil =>
      rw [removeEachKey, pure_eq_ok, withoutKeys_nil]
      constructor
      · rintro rfl
        have none : ∀ first : Nat, first ∉ ([] : List Nat).head? := by
          simp
        exact ⟨fun first absurdity => absurd absurdity (none first),
          ⟨.nil, List.forall_mem_nil _⟩, List.forall_mem_nil _, rfl⟩
      · rintro ⟨-, -, -, rfl⟩
        rfl
  | cons first rest induction =>
      have below : first < totalKeys - idx := inside first rfl
      have shifted : totalKeys - (idx + 1) = totalKeys - idx - 1 := rfl
      rw [removeEachKey_cons]
      constructor
      · rintro ⟨descending, -, long, returned⟩
        have descends := removeEachKey_descends returned
        obtain ⟨-, removable, longer, rfl⟩ := (induction (by
          intro next member
          have less := descends next member
          omega)).mp returned
        have removable := SwapRemove.removable_cons.mpr
          ⟨below, descends, removable⟩
        refine ⟨?_, removable, ?_, (withoutKeys_cons removable).symm⟩
        · intro head member
          obtain rfl : first = head := Option.some.inj member
          exact descending
        · intro next member
          cases List.mem_cons.mp member with
          | inl same => exact same ▸ long
          | inr later =>
              rw [← withoutKeys_later removable later]
              exact longer next later
      · rintro ⟨descending, removable, long, rfl⟩
        obtain ⟨-, descends, others⟩ :=
          SwapRemove.removable_cons.mp removable
        refine ⟨descending first rfl, by omega,
          long first List.mem_cons_self, ?_⟩
        refine (induction ?_).mpr ⟨?_, others, ?_, withoutKeys_cons removable⟩
        · intro next member
          have less := descends next member
          omega
        · intro next member last same
          obtain rfl : first = last := Option.some.inj same
          exact descends next member
        · intro next later
          rw [withoutKeys_later removable later]
          exact long next (List.mem_cons_of_mem _ later)

/-- The operator after a removal of `count` keys down to `lastIndex`. -/
def shrunkOperator (operator : Operator)
    (blockNumber lastIndex count : Nat) : Operator :=
  { operator with
    keys := operator.keys - count
    limit := if operator.keys = operator.limit then operator.keys - count
      else if lastIndex < operator.limit then lastIndex
      else operator.limit
    latestKeysEditBlockNumber := toUint64 blockNumber }

/-- The limit is written last, where it changes. -/
theorem limit_shrunk {index lastIndex count total : Nat} {indexes : List Nat}
    {operator edited : Operator} {removed : OperatorsRegistry}
    (edits : edited = { operator with
      keys := operator.keys - count
      latestKeysEditBlockNumber := toUint64 blockNumber })
    (removes : removed =
      (registry.setOperator index edited).withoutKeys index total indexes) :
    (if operator.keys = operator.limit then
        pure (removed.setOperator index
          { edited with limit := operator.keys - count })
      else if lastIndex < operator.limit then
        pure (removed.setOperator index { edited with limit := lastIndex })
      else pure removed : Except Error OperatorsRegistry) =
        .ok ((registry.withoutKeys index total indexes).setOperator index
          (shrunkOperator operator blockNumber lastIndex count)) := by
  subst edits removes
  split
  · rename_i full
    simp only [setOperator, withoutKeys, shrunkOperator, List.set_set,
      if_pos full]
    rfl
  · rename_i notFull
    split
    · rename_i below
      simp only [setOperator, withoutKeys, shrunkOperator, List.set_set,
        if_neg notFull, if_pos below]
      rfl
    · rename_i above
      simp only [setOperator, withoutKeys, shrunkOperator, if_neg notFull,
        if_neg above]
      rfl

theorem removeValidators_eq_ok {index : Nat} {indexes : List Nat}
    {operator : Operator}
    (found : registry.operators[index]? = some operator)
    (small : operator.keys < uint32Limit) :
    registry.removeValidators sender blockNumber index indexes =
        .ok after ↔
      registry.onlyOperatorOrAdmin sender index = .ok () ∧
      ∃ lastIndex, indexes.getLast? = some lastIndex ∧
        operator.funded ≤ lastIndex ∧ Removable operator.keys indexes ∧
        (∀ keyIndex ∈ indexes,
          entryLength ≤ (registry.validatorKeys index keyIndex).length) ∧
        (registry.withoutKeys index operator.keys indexes).setOperator index
          (shrunkOperator operator blockNumber lastIndex indexes.length) =
            after := by
  simp only [removeValidators, getOperator, bind_eq_ok, fetch_eq_ok,
    require_eq_ok, usub_eq_ok, found, Option.some.injEq,
    ← List.getLast?_eq_getElem?, ← List.head?_eq_getElem?]
  constructor
  · rintro ⟨_, authorized, -, nonempty, _, rfl, firstIndex, first, -, inside,
      lastIndex, last, -, aboveFunded, keys, ⟨-, rfl⟩, removed, removing,
      returned⟩
    obtain ⟨-, removable, long, rfl⟩ := (removeEachKey_eq_ok (by
      rw [first]
      rintro head ⟨rfl⟩
      exact inside)).mp removing
    rw [Nat.sub_zero] at removable returned
    have room := removable.length_le
    have lastInside := removable.below lastIndex
      (List.mem_of_getLast? last)
    rw [toUint32_of_lt (by omega), toUint32_of_lt (by omega)] at returned
    refine ⟨authorized, lastIndex, last, aboveFunded, removable, long, ?_⟩
    exact Except.ok.inj ((limit_shrunk rfl rfl).symm.trans returned)
  · rintro ⟨authorized, lastIndex, last, aboveFunded, removable, long, rfl⟩
    have nonempty : indexes.length ≠ 0 := by
      rintro empty
      rw [List.length_eq_zero_iff.mp empty] at last
      cases last
    obtain ⟨firstIndex, first⟩ : ∃ first, indexes.head? = some first := by
      rw [← Option.isSome_iff_exists, List.isSome_head?]
      rintro rfl
      cases last
    have inside := removable.below firstIndex (List.mem_of_head? first)
    have lastInside := removable.below lastIndex (List.mem_of_getLast? last)
    have room := removable.length_le
    rw [toUint32_of_lt (by omega)]
    refine ⟨_, authorized, (), nonempty, _, rfl, firstIndex, first, (),
      inside, lastIndex, last, (), aboveFunded, _, ⟨room, rfl⟩, _,
      (removeEachKey_eq_ok ?_).mpr ⟨by simp, removable, long, rfl⟩, ?_⟩
    · rw [first]
      rintro head ⟨rfl⟩
      exact inside
    · rw [toUint32_of_lt (by omega)]
      exact limit_shrunk rfl rfl

theorem removeValidators_found {index : Nat} {indexes : List Nat}
    (returned : registry.removeValidators sender blockNumber index indexes =
      .ok after) : ∃ operator, registry.operators[index]? = some operator := by
  simp only [removeValidators, getOperator, bind_eq_ok, fetch_eq_ok]
    at returned
  obtain ⟨-, -, -, -, operator, found, -⟩ := returned
  exact ⟨operator, found⟩

theorem removeValidators_edits {index : Nat} {indexes : List Nat}
    (tiered : registry.Tiered)
    (returned : registry.removeValidators sender blockNumber index indexes =
      .ok after) :
    Edits (Change blockNumber ·
      (.manage sender (.removeValidators index indexes)))
      registry after := by
  obtain ⟨operator, found⟩ := removeValidators_found returned
  obtain ⟨-, lastIndex, last, aboveFunded, removable, -, rfl⟩ :=
    (removeValidators_eq_ok found (tiered.of_found found).keys_lt).mp returned
  have least := removable.last_le last
  have room := removable.smallest_add_length
    (List.ne_nil_of_mem (List.mem_of_getLast? last)) least
  have length := removable.length_le
  refine .of_set found rfl (fun _ => withoutKeys_other) rfl
    (.keysRemoved aboveFunded ?_ ?_ ?_ ?_ rfl)
  · omega
  · dsimp only
    omega
  · intro position below
    dsimp only [setOperator]
    rw [withoutKeys_self]
    exact SwapRemove.removeEach_below removable fun keyIndex member =>
      below.trans_le (least keyIndex member)
  · intro position remaining
    dsimp only [setOperator]
    rw [withoutKeys_self]
    exact SwapRemove.removeEach_origin removable remaining


theorem Call.apply_edits {call : Call} (tiered : registry.Tiered)
    (returned : call.apply registry sender blockNumber = .ok after)
    (edits : ∀ name operator, call ≠ .addOperator name operator) :
    Edits (Change blockNumber · (.manage sender call)) registry after := by
  cases Call.apply_effect returned with
  | administer administrable => exact .of_same rfl rfl rfl
  | add adding => exact absurd rfl (edits _ _)
  | describe operator name active found =>
      exact renamed_edits found rfl rfl rfl rfl rfl
  | limit setting => exact setEachLimit_edits setting
  | addKeys adding => exact addValidators_edits adding
  | removeKeys removing => exact removeValidators_edits tiered removing

end Manage

end OperatorsRegistry

end RiverProtocol
