import Mathlib.Algebra.Order.BigOperators.Group.List
import Mathlib.Logic.Relation
import RiverProtocol.Lib.Lists
import RiverProtocol.OperatorsRegistry.Model

/-!
# Exit accounting of the registry

The counters of the operators are summed and compared with the totals of the
registry.  A management call is a sequence of writes that leave the counters
alone; funding, exit requests and stopped counts move them by known amounts.
-/

namespace RiverProtocol

open Checked Outcome Lists

/-- The operator with `count` more requested exits. -/
def Operator.exiting (operator : Operator) (count : Nat) : Operator :=
  { operator with requestedExits := operator.requestedExits + count }

/-- The counters are 32-bit words and exits are requested of funded
validators. -/
structure Operator.Ordered (operator : Operator) : Prop where
  requested : operator.requestedExits ≤ operator.funded
  limit : operator.limit < uint32Limit
  keys : operator.keys < uint32Limit
  funded : operator.funded < uint32Limit

def fundedSum (operators : List Operator) : Nat :=
  (operators.map Operator.funded).sum

def requestedSum (operators : List Operator) : Nat :=
  (operators.map Operator.requestedExits).sum

section Write

variable {operators : List Operator} {index : Nat} {operator : Operator}

theorem fundedSum_set (edited : Operator)
    (found : operators[index]? = some operator) :
    fundedSum (operators.set index edited) + operator.funded =
      fundedSum operators + edited.funded :=
  sum_map_set Operator.funded edited found

theorem requestedSum_set (edited : Operator)
    (found : operators[index]? = some operator) :
    requestedSum (operators.set index edited) + operator.requestedExits =
      requestedSum operators + edited.requestedExits :=
  sum_map_set Operator.requestedExits edited found

theorem ordered_of_found (ordered : ∀ operator ∈ operators, operator.Ordered)
    (found : operators[index]? = some operator) : operator.Ordered :=
  ordered operator (List.mem_of_getElem? found)

end Write

namespace OperatorsRegistry

/-- The registry and River count the same validators. -/
structure Accounted (registry : OperatorsRegistry) (deposited : Nat) :
    Prop where
  funded_total : fundedSum registry.operators = deposited
  requested_total : registry.totalValidatorExitsRequested =
    requestedSum registry.operators
  ordered : ∀ operator ∈ registry.operators, operator.Ordered
  demand : registry.totalValidatorExitsRequested +
    registry.currentValidatorExitsDemand ≤ deposited
  stopped_length : registry.stoppedValidators.length ≤
    registry.operators.length + 1

theorem accounted_fresh (admin : Address) : Accounted (fresh admin) 0 where
  funded_total := rfl
  requested_total := rfl
  ordered := by simp [fresh]
  demand := Nat.le_refl _
  stopped_length := by simp [fresh]

/-- The exit totals and the stopped counts are the same. -/
structure SameExits (registry after : OperatorsRegistry) : Prop where
  total : after.totalValidatorExitsRequested =
    registry.totalValidatorExitsRequested
  demand : after.currentValidatorExitsDemand =
    registry.currentValidatorExitsDemand
  stopped : after.stoppedValidators = registry.stoppedValidators

theorem SameExits.trans {registry middle after : OperatorsRegistry}
    (first : SameExits registry middle) (second : SameExits middle after) :
    SameExits registry after :=
  ⟨second.total.trans first.total, second.demand.trans first.demand,
    second.stopped.trans first.stopped⟩

/-- One write of a management call. -/
inductive Managed : OperatorsRegistry → OperatorsRegistry → Prop where
  | kept {registry after : OperatorsRegistry} :
      after.operators = registry.operators → SameExits registry after →
      Managed registry after
  | edit {registry after : OperatorsRegistry} {index : Nat}
      {operator edited : Operator} :
      registry.operators[index]? = some operator →
      edited.funded = operator.funded →
      edited.requestedExits = operator.requestedExits →
      (operator.Ordered →
        edited.limit < uint32Limit ∧ edited.keys < uint32Limit) →
      after.operators = registry.operators.set index edited →
      SameExits registry after → Managed registry after
  | add {registry after : OperatorsRegistry} {operator : Operator} :
      operator.funded = 0 → operator.requestedExits = 0 →
      operator.limit = 0 → operator.keys = 0 →
      after.operators = registry.operators ++ [operator] →
      SameExits registry after → Managed registry after

theorem Accounted.of_managed {registry after : OperatorsRegistry}
    {deposited : Nat} (accounted : Accounted registry deposited)
    (managed : Managed registry after) : Accounted after deposited := by
  cases managed with
  | kept same exits =>
      refine ⟨?_, ?_, ?_, ?_, ?_⟩
      · rw [same, accounted.funded_total]
      · rw [exits.total, accounted.requested_total, same]
      · rw [same]
        exact accounted.ordered
      · rw [exits.total, exits.demand]
        exact accounted.demand
      · rw [exits.stopped, same]
        exact accounted.stopped_length
  | @edit index operator edited found funded requested sized same exits =>
      have old := ordered_of_found accounted.ordered found
      have fundedMoves := fundedSum_set edited found
      have requestedMoves := requestedSum_set edited found
      refine ⟨?_, ?_, ?_, ?_, ?_⟩
      · rw [same, ← accounted.funded_total]
        omega
      · rw [exits.total, accounted.requested_total, same]
        omega
      · rw [same]
        apply forall_mem_set accounted.ordered
        obtain ⟨limit, keys⟩ := sized old
        exact ⟨by rw [funded, requested]; exact old.requested, limit, keys,
          funded ▸ old.funded⟩
      · rw [exits.total, exits.demand]
        exact accounted.demand
      · rw [exits.stopped, same, List.length_set]
        exact accounted.stopped_length
  | add funded requested limit keys same exits =>
      refine ⟨?_, ?_, ?_, ?_, ?_⟩
      · rw [same, ← accounted.funded_total]
        simp [fundedSum, funded]
      · rw [exits.total, accounted.requested_total, same]
        simp [requestedSum, requested]
      · rw [same]
        intro operator member
        cases List.mem_append.mp member with
        | inl old => exact accounted.ordered operator old
        | inr new =>
            rw [List.mem_singleton] at new
            subst new
            have positive : 0 < uint32Limit := by decide
            exact ⟨by omega, by omega, by omega, by omega⟩
      · rw [exits.total, exits.demand]
        exact accounted.demand
      · rw [exits.stopped, same, List.length_append]
        exact accounted.stopped_length.trans (by simp)

section Managing

variable {registry after : OperatorsRegistry}

theorem setOperator_managed {index : Nat} {operator edited : Operator}
    (found : registry.operators[index]? = some operator)
    (funded : edited.funded = operator.funded)
    (requested : edited.requestedExits = operator.requestedExits)
    (sized : operator.Ordered →
      edited.limit < uint32Limit ∧ edited.keys < uint32Limit) :
    Managed registry (registry.setOperator index edited) :=
  .edit found funded requested sized rfl ⟨rfl, rfl, rfl⟩

theorem renamed_managed {index : Nat} {operator edited : Operator}
    (found : registry.operators[index]? = some operator)
    (funded : edited.funded = operator.funded)
    (requested : edited.requestedExits = operator.requestedExits)
    (limit : edited.limit = operator.limit)
    (keys : edited.keys = operator.keys) :
    Managed registry (registry.setOperator index edited) := by
  apply setOperator_managed found funded requested
  intro ordered
  rw [limit, keys]
  exact ⟨ordered.limit, ordered.keys⟩

/-- The first limit is skipped, or it is between the funded and the stored
keys and written. -/
theorem setEachLimit_cons {snapshotBlock index newLimit : Nat}
    {previous : Option Nat} {limits : List (Nat × Nat)}
    (returned : setEachLimit snapshotBlock previous
      ((index, newLimit) :: limits) registry = .ok after) :
    ∃ operator, registry.operators[index]? = some operator ∧
      (setEachLimit snapshotBlock (some index) limits registry = .ok after ∨
        newLimit ≤ operator.keys ∧ operator.funded ≤ newLimit ∧
        (operator.limit < newLimit →
          operator.latestKeysEditBlockNumber ≤ snapshotBlock) ∧
        setEachLimit snapshotBlock (some index) limits
          (registry.setOperator index { operator with limit := newLimit }) =
            .ok after) := by
  simp only [setEachLimit, getOperator, bind_eq_ok, require_eq_ok,
    fetch_eq_ok] at returned
  obtain ⟨-, -, operator, found, returned⟩ := returned
  refine ⟨operator, found, ?_⟩
  split at returned
  · exact .inl returned
  · split at returned
    · exact .inl returned
    · rename_i unguarded
      simp only [bind_eq_ok, require_eq_ok] at returned
      obtain ⟨-, belowKeys, -, aboveFunded, returned⟩ := returned
      refine .inr ⟨belowKeys, aboveFunded, ?_, returned⟩
      intro raised
      by_contra edited
      exact unguarded ⟨Nat.lt_of_not_le edited, raised⟩

theorem setEachLimit_managed {snapshotBlock : Nat} {previous : Option Nat}
    {limits : List (Nat × Nat)}
    (returned : setEachLimit snapshotBlock previous limits registry =
      .ok after) : Relation.ReflTransGen Managed registry after := by
  induction limits generalizing previous registry with
  | nil =>
      simp only [setEachLimit, pure_eq_ok] at returned
      rw [returned]
  | cons first rest induction =>
      obtain ⟨operator, found, same | ⟨belowKeys, -, -, written⟩⟩ :=
        setEachLimit_cons returned
      · exact induction same
      · refine .head ?_ (induction written)
        apply setOperator_managed found
        · rfl
        · rfl
        · intro ordered
          exact ⟨belowKeys.trans_lt ordered.keys, ordered.keys⟩

theorem removeEachKey_managed {index totalKeys idx : Nat}
    {previous : Option Nat} {indexes : List Nat}
    (returned : removeEachKey index totalKeys previous idx indexes registry =
      .ok after) :
    after.operators = registry.operators ∧ SameExits registry after := by
  induction indexes generalizing previous idx registry with
  | nil =>
      simp only [removeEachKey, pure_eq_ok] at returned
      subst returned
      exact ⟨rfl, rfl, rfl, rfl⟩
  | cons first rest induction =>
      simp only [removeEachKey, bind_eq_ok, Prod.exists] at returned
      obtain ⟨-, -, lastKeyIndex, -, removedKey, -, -, returned⟩ := returned
      obtain ⟨same, exits⟩ := induction returned
      exact ⟨same, exits.total, exits.demand, exits.stopped⟩

theorem removeValidators_managed {sender : Address}
    {blockNumber index : Nat} {indexes : List Nat}
    (returned : registry.removeValidators sender blockNumber index indexes =
      .ok after) : Relation.ReflTransGen Managed registry after := by
  simp only [removeValidators, getOperator, bind_eq_ok, fetch_eq_ok,
    require_eq_ok, usub_eq_ok] at returned
  obtain ⟨-, -, -, -, operator, found, firstIndex, -, -, -, lastIndex, -, -,
    -, keys, ⟨-, rfl⟩, removed, removing, returned⟩ := returned
  obtain ⟨operators, exits⟩ := removeEachKey_managed removing
  have edit : Managed registry (registry.setOperator index { operator with
      keys := operator.keys - toUint32 indexes.length
      latestKeysEditBlockNumber := toUint64 blockNumber }) := by
    apply setOperator_managed found
    · rfl
    · rfl
    · intro ordered
      exact ⟨ordered.limit, (Nat.sub_le _ _).trans_lt ordered.keys⟩
  have edited := (Relation.ReflTransGen.single edit).tail
    (.kept operators exits)
  have inside := (List.getElem?_eq_some_iff.mp found).1
  have stored : removed.operators[index]? = some { operator with
      keys := operator.keys - toUint32 indexes.length
      latestKeysEditBlockNumber := toUint64 blockNumber } := by
    rw [operators]
    exact List.getElem?_set_self inside
  split at returned
  · simp only [pure_eq_ok] at returned
    subst returned
    refine edited.tail ?_
    apply setOperator_managed stored
    · rfl
    · rfl
    · intro ordered
      exact ⟨ordered.keys, ordered.keys⟩
  · split at returned
    · simp only [pure_eq_ok] at returned
      subst returned
      refine edited.tail ?_
      apply setOperator_managed stored
      · rfl
      · rfl
      · intro ordered
        exact ⟨toUint32_lt _, ordered.keys⟩
    · simp only [pure_eq_ok] at returned
      subst returned
      exact edited

theorem addValidators_managed {sender : Address}
    {blockNumber index keyCount : Nat} {bytes : Bytes}
    (returned : registry.addValidators sender blockNumber index keyCount
      bytes = .ok after) : Relation.ReflTransGen Managed registry after := by
  simp only [addValidators, getOperator, bind_eq_ok, fetch_eq_ok,
    uadd32_eq_ok, pure_eq_ok] at returned
  obtain ⟨-, -, -, -, -, -, operator, found, stored, -, keys, ⟨small, rfl⟩,
    rfl⟩ := returned
  have edit : Managed registry (registry.setOperator index
      { operator with
        keys := operator.keys + keyCount
        latestKeysEditBlockNumber := toUint64 blockNumber }) := by
    apply setOperator_managed found
    · rfl
    · rfl
    · intro ordered
      exact ⟨ordered.limit, small⟩
  exact (Relation.ReflTransGen.single edit).tail (.kept rfl ⟨rfl, rfl, rfl⟩)

/-- What a management call comes down to. -/
inductive Call.Effect (registry : OperatorsRegistry) (sender : Address)
    (blockNumber : Nat) : Call → OperatorsRegistry → Prop where
  | administer {call : Call} (administrable : Administrable) :
      Effect registry sender blockNumber call
        { registry with administrable := administrable }
  | add {after : OperatorsRegistry} {name : String} {operator : Address}
      {index : Nat} :
      registry.addOperator sender blockNumber name operator =
        .ok (after, index) →
      Effect registry sender blockNumber (.addOperator name operator) after
  | describe {call : Call} {index : Nat} {found : Operator}
      (operator : Address) (name : String) (active : Bool) :
      registry.operators[index]? = some found →
      Effect registry sender blockNumber call
        (registry.setOperator index { found with operator, name, active })
  | limit {after : OperatorsRegistry} {operatorIndexes newLimits : List Nat}
      {snapshotBlock : Nat} :
      setEachLimit snapshotBlock none (operatorIndexes.zip newLimits)
        registry = .ok after →
      Effect registry sender blockNumber
        (.setOperatorLimits operatorIndexes newLimits snapshotBlock) after
  | addKeys {after : OperatorsRegistry} {index keyCount : Nat}
      {bytes : Bytes} :
      registry.addValidators sender blockNumber index keyCount bytes =
        .ok after →
      Effect registry sender blockNumber
        (.addValidators index keyCount bytes) after
  | removeKeys {after : OperatorsRegistry} {index : Nat}
      {indexes : List Nat} :
      registry.removeValidators sender blockNumber index indexes =
        .ok after →
      Effect registry sender blockNumber (.removeValidators index indexes)
        after

theorem Call.apply_effect {call : Call} {sender : Address}
    {blockNumber : Nat}
    (returned : call.apply registry sender blockNumber = .ok after) :
    Call.Effect registry sender blockNumber call after := by
  cases call with
  | proposeAdmin newAdmin =>
      simp only [Call.apply, bind_eq_ok, pure_eq_ok] at returned
      obtain ⟨administrable, -, rfl⟩ := returned
      exact .administer administrable
  | acceptAdmin =>
      simp only [Call.apply, bind_eq_ok, pure_eq_ok] at returned
      obtain ⟨administrable, -, rfl⟩ := returned
      exact .administer administrable
  | addOperator name operator =>
      simp only [Call.apply, bind_eq_ok, pure_eq_ok, Prod.exists] at returned
      obtain ⟨added, index, adding, rfl⟩ := returned
      exact .add adding
  | setOperatorAddress index newOperatorAddress =>
      simp only [Call.apply, OperatorsRegistry.setOperatorAddress,
        getOperator, bind_eq_ok, fetch_eq_ok, pure_eq_ok] at returned
      obtain ⟨-, -, -, -, operator, found, rfl⟩ := returned
      exact .describe newOperatorAddress operator.name operator.active found
  | setOperatorName index newName =>
      simp only [Call.apply, OperatorsRegistry.setOperatorName, getOperator,
        bind_eq_ok, fetch_eq_ok, pure_eq_ok] at returned
      obtain ⟨-, -, -, -, operator, found, rfl⟩ := returned
      exact .describe operator.operator newName operator.active found
  | setOperatorStatus index newStatus =>
      simp only [Call.apply, OperatorsRegistry.setOperatorStatus,
        getOperator, bind_eq_ok, fetch_eq_ok, pure_eq_ok] at returned
      obtain ⟨-, -, operator, found, rfl⟩ := returned
      exact .describe operator.operator operator.name newStatus found
  | setOperatorLimits operatorIndexes newLimits snapshotBlock =>
      simp only [Call.apply, OperatorsRegistry.setOperatorLimits,
        bind_eq_ok] at returned
      obtain ⟨-, -, -, -, -, -, setting⟩ := returned
      exact .limit setting
  | addValidators index keyCount bytes => exact .addKeys returned
  | removeValidators index indexes => exact .removeKeys returned

/-- A management call is a sequence of writes that keep the counters. -/
theorem Call.apply_managed {call : Call} {sender : Address}
    {blockNumber : Nat}
    (returned : call.apply registry sender blockNumber = .ok after) :
    Relation.ReflTransGen Managed registry after := by
  cases Call.apply_effect returned with
  | administer administrable => exact .single (.kept rfl ⟨rfl, rfl, rfl⟩)
  | add adding =>
      simp only [OperatorsRegistry.addOperator, bind_eq_ok, pure_eq_ok,
        Prod.mk.injEq] at adding
      obtain ⟨-, -, -, -, -, -, rfl, rfl⟩ := adding
      exact .single (.add rfl rfl rfl rfl rfl ⟨rfl, rfl, rfl⟩)
  | describe operator name active found =>
      exact .single (renamed_managed found rfl rfl rfl rfl)
  | limit setting => exact setEachLimit_managed setting
  | addKeys adding => exact addValidators_managed adding
  | removeKeys removing => exact removeValidators_managed removing

end Managing

theorem Accounted.of_call {registry after : OperatorsRegistry} {call : Call}
    {sender : Address} {blockNumber deposited : Nat}
    (accounted : Accounted registry deposited)
    (returned : call.apply registry sender blockNumber = .ok after) :
    Accounted after deposited := by
  have managed := Call.apply_managed returned
  clear returned
  induction managed with
  | refl => exact accounted
  | tail _ managed induction => exact induction.of_managed managed

theorem getKeys_length {entries : Nat → Bytes} {startIdx amount : Nat}
    {keys : List (Bytes × Bytes)}
    (returned : ValidatorKeys.getKeys entries startIdx amount = .ok keys) :
    keys.length = amount := by
  induction amount generalizing startIdx keys with
  | zero =>
      simp only [ValidatorKeys.getKeys, pure_eq_ok] at returned
      rw [← returned]
      rfl
  | succ amount induction =>
      simp only [ValidatorKeys.getKeys, bind_eq_ok, pure_eq_ok] at returned
      obtain ⟨first, -, rest, others, rfl⟩ := returned
      rw [List.length_cons, induction others]

/-- Each allocation gets as many keys as it asks for. -/
theorem keysForEach_ok {registry : OperatorsRegistry}
    {previous : Option Nat} {allocations : List OperatorAllocation}
    {perOperator : List (List (Bytes × Bytes))}
    (ordered : ∀ operator ∈ registry.operators, operator.Ordered)
    (returned : registry.keysForEach previous allocations =
      .ok perOperator) :
    perOperator.length = allocations.length ∧
      ∀ keys ∈ perOperator, keys.length < uint32Limit := by
  induction allocations generalizing previous perOperator with
  | nil =>
      simp only [keysForEach, pure_eq_ok] at returned
      subst returned
      simp
  | cons allocation rest induction =>
      simp only [keysForEach, getFundedCountForOperatorIfFundable,
        getOperator, bind_eq_ok, require_eq_ok, fetch_eq_ok, usub_eq_ok,
        pure_eq_ok] at returned
      obtain ⟨-, -, -, -, funded, ⟨operator, found, -, -, -, -, available,
        ⟨-, rfl⟩, -, bounded, rfl⟩, keys, picked, others, following, rfl⟩ :=
        returned
      obtain ⟨lengths, small⟩ := induction following
      refine ⟨by simp [lengths], ?_⟩
      intro entry member
      cases List.mem_cons.mp member with
      | inl first =>
          have limit := (ordered_of_found ordered found).limit
          rw [first, getKeys_length picked]
          omega
      | inr later => exact small entry later

/-- The keys of the allocations are added to the funded counts. -/
theorem fundEach_ok
    {pairs : List (OperatorAllocation × List (Bytes × Bytes))}
    {registry after : OperatorsRegistry}
    (small : ∀ pair ∈ pairs, pair.2.length < uint32Limit)
    (ordered : ∀ operator ∈ registry.operators, operator.Ordered)
    (returned : fundEach pairs registry = .ok after) :
    fundedSum after.operators = fundedSum registry.operators +
        (pairs.map fun pair => pair.2.length).sum ∧
      requestedSum after.operators = requestedSum registry.operators ∧
      (∀ operator ∈ after.operators, operator.Ordered) ∧
      after.operators.length = registry.operators.length ∧
      SameExits registry after := by
  induction pairs generalizing registry with
  | nil =>
      simp only [fundEach, pure_eq_ok] at returned
      subst returned
      exact ⟨rfl, rfl, ordered, rfl, rfl, rfl, rfl⟩
  | cons pair rest induction =>
      obtain ⟨allocation, keys⟩ := pair
      simp only [fundEach, getOperator, bind_eq_ok, fetch_eq_ok,
        uadd32_eq_ok] at returned
      obtain ⟨operator, found, funded, ⟨fits, rfl⟩, following⟩ := returned
      have count : toUint32 keys.length = keys.length :=
        toUint32_of_lt (small _ List.mem_cons_self)
      rw [count] at fits following
      have old := ordered_of_found ordered found
      have fundedMoves := fundedSum_set
        { operator with funded := operator.funded + keys.length } found
      have requestedMoves := requestedSum_set
        { operator with funded := operator.funded + keys.length } found
      have grown : Operator.Ordered
          { operator with funded := operator.funded + keys.length } :=
        ⟨old.requested.trans (Nat.le_add_right _ _), old.limit, old.keys, fits⟩
      obtain ⟨fundedEq, requestedEq, orderedAfter, length, exits⟩ :=
        induction (fun other member => small other
            (List.mem_cons_of_mem _ member))
          (forall_mem_set ordered grown) following
      refine ⟨?_, ?_, orderedAfter, ?_, exits.total, exits.demand,
        exits.stopped⟩
      · rw [fundedEq, List.map_cons, List.sum_cons]
        simp only [setOperator] at fundedMoves ⊢
        omega
      · rw [requestedEq]
        simp only [setOperator] at requestedMoves ⊢
        omega
      · rw [length]
        simp [setOperator]

theorem pickNextValidatorsToDeposit_ok {registry after : OperatorsRegistry}
    {allocations : List OperatorAllocation}
    {validators : List (Bytes × Bytes)} {deposited : Nat}
    (accounted : Accounted registry deposited)
    (returned : registry.pickNextValidatorsToDeposit allocations =
      .ok (after, validators)) :
    Accounted after (deposited + validators.length) := by
  simp only [pickNextValidatorsToDeposit,
    getPerOperatorValidatorKeysForAllocations, bind_eq_ok, pure_eq_ok,
    Prod.mk.injEq] at returned
  obtain ⟨perOperator, ⟨-, -, picked⟩, funded, funding, rfl, rfl⟩ := returned
  obtain ⟨lengths, small⟩ := keysForEach_ok accounted.ordered picked
  obtain ⟨fundedEq, requestedEq, ordered, length, exits⟩ := fundEach_ok
    (fun pair member => small pair.2 (List.of_mem_zip member).2)
    accounted.ordered funding
  have zipped : (allocations.zip perOperator).map Prod.snd = perOperator :=
    List.map_snd_zip (Nat.le_of_eq lengths)
  have total : ((allocations.zip perOperator).map
      fun pair => pair.2.length).sum = perOperator.flatten.length := by
    calc
      ((allocations.zip perOperator).map fun pair => pair.2.length).sum =
          (((allocations.zip perOperator).map Prod.snd).map
            List.length).sum := by rw [List.map_map]; rfl
      _ = perOperator.flatten.length := by rw [zipped, List.length_flatten]
  refine ⟨?_, ?_, ordered, ?_, ?_⟩
  · rw [fundedEq, total, accounted.funded_total]
  · rw [exits.total, accounted.requested_total, requestedEq]
  · rw [exits.total, exits.demand]
    exact accounted.demand.trans (Nat.le_add_right _ _)
  · rw [exits.stopped, length]
    exact accounted.stopped_length

/-- One allocation asks for no more exits than its operator has funded keys
left. -/
theorem requestEachExit_cons {previous : Option Nat} {counted total : Nat}
    {allocation : OperatorAllocation} {rest : List OperatorAllocation}
    {registry after : OperatorsRegistry}
    (ordered : ∀ operator ∈ registry.operators, operator.Ordered)
    (returned : requestEachExit previous counted (allocation :: rest)
      registry = .ok (after, total)) :
    ∃ operator,
      registry.operators[allocation.operatorIndex]? = some operator ∧
      allocation.validatorCount ≠ 0 ∧
      operator.requestedExits + allocation.validatorCount ≤
        operator.funded ∧
      (∀ other ∈ (registry.setOperator allocation.operatorIndex
        (operator.exiting allocation.validatorCount)).operators,
          other.Ordered) ∧
      requestEachExit (some allocation.operatorIndex)
        (counted + allocation.validatorCount) rest
        (registry.setOperator allocation.operatorIndex
          (operator.exiting allocation.validatorCount)) =
        .ok (after, total) := by
  simp only [requestEachExit, getOperator, bind_eq_ok, require_eq_ok,
    uadd_eq_ok, fetch_eq_ok, usub_eq_ok, uadd32_eq_ok] at returned
  obtain ⟨-, positive, -, -, next, ⟨-, rfl⟩, operator, found, -, -, available,
    ⟨-, rfl⟩, -, enough, requested, ⟨-, rfl⟩, following⟩ := returned
  have old := ordered_of_found ordered found
  have within := old.requested
  have width := old.funded
  rw [toUint32_of_lt (by omega)] at following
  have room : operator.requestedExits + allocation.validatorCount ≤
      operator.funded := by omega
  have grown : (operator.exiting allocation.validatorCount).Ordered :=
    ⟨room, old.limit, old.keys, old.funded⟩
  exact ⟨operator, found, positive, room, forall_mem_set ordered grown,
    following⟩

theorem requestEachExit_ok {previous : Option Nat} {counted total : Nat}
    {allocations : List OperatorAllocation}
    {registry after : OperatorsRegistry}
    (ordered : ∀ operator ∈ registry.operators, operator.Ordered)
    (returned : requestEachExit previous counted allocations registry =
      .ok (after, total)) :
    fundedSum after.operators = fundedSum registry.operators ∧
      requestedSum after.operators + counted =
        requestedSum registry.operators + total ∧
      (∀ operator ∈ after.operators, operator.Ordered) ∧
      after.operators.length = registry.operators.length ∧
      SameExits registry after := by
  induction allocations generalizing previous counted registry with
  | nil =>
      simp only [requestEachExit, pure_eq_ok, Prod.mk.injEq] at returned
      obtain ⟨rfl, rfl⟩ := returned
      exact ⟨rfl, rfl, ordered, rfl, rfl, rfl, rfl⟩
  | cons allocation rest induction =>
      obtain ⟨operator, found, -, -, orderedNext, following⟩ :=
        requestEachExit_cons ordered returned
      have fundedMoves :=
        fundedSum_set (operator.exiting allocation.validatorCount) found
      have requestedMoves :=
        requestedSum_set (operator.exiting allocation.validatorCount) found
      obtain ⟨fundedEq, requestedEq, orderedAfter, length, exits⟩ :=
        induction orderedNext following
      refine ⟨?_, ?_, orderedAfter, ?_, exits.total, exits.demand,
        exits.stopped⟩
      · rw [fundedEq]
        simp only [setOperator, Operator.exiting] at fundedMoves ⊢
        omega
      · simp only [setOperator, Operator.exiting]
          at requestedEq requestedMoves
        omega
      · rw [length]
        simp [setOperator]

theorem requestValidatorExits_ok {registry after : OperatorsRegistry}
    {keeper sender : Address} {allocations : List OperatorAllocation}
    {deposited : Nat} (accounted : Accounted registry deposited)
    (returned : registry.requestValidatorExits keeper sender allocations =
      .ok after) : Accounted after deposited := by
  simp only [requestValidatorExits, bind_eq_ok, require_eq_ok, usub_eq_ok,
    uadd_eq_ok, pure_eq_ok, Prod.exists] at returned
  obtain ⟨-, -, -, -, -, -, requested, total, requesting, -, enough, demand,
    ⟨-, rfl⟩, totalExits, ⟨-, rfl⟩, rfl⟩ := returned
  obtain ⟨fundedEq, requestedEq, ordered, length, exits⟩ :=
    requestEachExit_ok accounted.ordered requesting
  have totalBefore := accounted.requested_total
  have demandBefore := accounted.demand
  have totalSame := exits.total
  have demandSame := exits.demand
  refine ⟨fundedEq.trans accounted.funded_total, ?_, ordered, ?_, ?_⟩
  · dsimp only
    omega
  · dsimp only
    omega
  · dsimp only
    rw [exits.stopped, length]
    exact accounted.stopped_length

theorem demandValidatorExits_ok {registry after : OperatorsRegistry}
    {count deposited : Nat} (accounted : Accounted registry deposited)
    (returned : registry.demandValidatorExits count deposited = .ok after) :
    Accounted after deposited := by
  simp only [demandValidatorExits, bind_eq_ok, uadd_eq_ok, usub_eq_ok]
    at returned
  obtain ⟨requested, ⟨-, rfl⟩, room, ⟨enough, rfl⟩, returned⟩ := returned
  rw [LibUint256.min_eq] at returned
  split at returned
  · simp only [bind_eq_ok, uadd_eq_ok, pure_eq_ok] at returned
    obtain ⟨demand, ⟨-, rfl⟩, rfl⟩ := returned
    refine ⟨accounted.funded_total, accounted.requested_total,
      accounted.ordered, ?_, accounted.stopped_length⟩
    dsimp only
    omega
  · simp only [pure_eq_ok] at returned
    subst returned
    exact accounted

/-- What one iteration over the stopped counts does. -/
theorem stopOne_ok {loop after : StoppedLoop} {index stoppedCount : Nat}
    (ordered : ∀ operator ∈ loop.operators, operator.Ordered)
    (returned : stopOne loop index stoppedCount = .ok after) :
    fundedSum after.operators = fundedSum loop.operators ∧
      requestedSum after.operators + loop.unsolicitedExitsSum =
        requestedSum loop.operators + after.unsolicitedExitsSum ∧
      (∀ operator ∈ after.operators, operator.Ordered) ∧
      after.operators.length = loop.operators.length := by
  simp only [stopOne, bind_eq_ok, fetch_eq_ok, require_eq_ok, pure_eq_ok,
    Prod.exists] at returned
  obtain ⟨operator, found, -, bounded, operators, sum, writing, count, -,
    rfl⟩ := returned
  split at writing
  · simp only [bind_eq_ok, usub_eq_ok, uadd_eq_ok, pure_eq_ok,
      Prod.mk.injEq] at writing
    obtain ⟨unsolicited, ⟨more, rfl⟩, added, ⟨-, rfl⟩, rfl, rfl⟩ := writing
    have old := ordered_of_found ordered found
    have fundedMoves := fundedSum_set
      { operator with requestedExits := stoppedCount } found
    have requestedMoves := requestedSum_set
      { operator with requestedExits := stoppedCount } found
    refine ⟨by simpa using fundedMoves, ?_, ?_, by simp⟩
    · dsimp only at requestedMoves ⊢
      omega
    · exact forall_mem_set ordered
        ⟨bounded, old.limit, old.keys, old.funded⟩
  · simp only [pure_eq_ok, Prod.mk.injEq] at writing
    obtain ⟨rfl, rfl⟩ := writing
    exact ⟨rfl, rfl, ordered, rfl⟩

theorem stopEach_cons {index stoppedCount : Nat} {counts current : List Nat}
    {loop after : StoppedLoop}
    (returned : stopEach index (stoppedCount :: counts) current loop =
      .ok after) :
    ∃ next rest, stopOne loop index stoppedCount = .ok next ∧
      stopEach (index + 1) counts rest next = .ok after := by
  cases current with
  | nil =>
      simp only [stopEach, bind_eq_ok] at returned
      obtain ⟨next, first, remaining⟩ := returned
      exact ⟨next, [], first, remaining⟩
  | cons currentCount current =>
      simp only [stopEach, bind_eq_ok] at returned
      obtain ⟨-, -, next, first, remaining⟩ := returned
      exact ⟨next, current, first, remaining⟩

theorem stopEach_ok {index : Nat} {counts current : List Nat}
    {loop after : StoppedLoop}
    (ordered : ∀ operator ∈ loop.operators, operator.Ordered)
    (returned : stopEach index counts current loop = .ok after) :
    fundedSum after.operators = fundedSum loop.operators ∧
      requestedSum after.operators + loop.unsolicitedExitsSum =
        requestedSum loop.operators + after.unsolicitedExitsSum ∧
      (∀ operator ∈ after.operators, operator.Ordered) ∧
      after.operators.length = loop.operators.length := by
  induction counts generalizing index current loop with
  | nil =>
      simp only [stopEach, pure_eq_ok] at returned
      subst returned
      exact ⟨rfl, rfl, ordered, rfl⟩
  | cons stoppedCount counts induction =>
      obtain ⟨next, rest, first, remaining⟩ := stopEach_cons returned
      obtain ⟨funded, requested, orderedNext, length⟩ :=
        stopOne_ok ordered first
      obtain ⟨fundedAfter, requestedAfter, orderedAfter, lengthAfter⟩ :=
        induction orderedNext remaining
      exact ⟨fundedAfter.trans funded, by omega, orderedAfter,
        lengthAfter.trans length⟩

/-- The first count is the sum of the others; the loop over those writes the
operators, and what it finds unsolicited moves the totals. -/
theorem reportStoppedValidatorCounts_loop {registry after : OperatorsRegistry}
    {counts : List Nat} {deposited : Nat}
    (returned : registry.reportStoppedValidatorCounts counts deposited =
      .ok after) :
    ∃ total stopped loop, counts = total :: stopped ∧
      stopped.length ≤ registry.operators.length ∧
      registry.stoppedValidators.length ≤ counts.length ∧
      stopEach 0 stopped registry.stoppedValidators.tail
        { operators := registry.operators
          unsolicitedExitsSum := 0
          count := 0 } = .ok loop ∧
      total = loop.count ∧
      after = { registry with
        operators := loop.operators
        totalValidatorExitsRequested :=
          registry.totalValidatorExitsRequested + loop.unsolicitedExitsSum
        currentValidatorExitsDemand :=
          registry.currentValidatorExitsDemand -
            min loop.unsolicitedExitsSum registry.currentValidatorExitsDemand
        stoppedValidators := counts } := by
  cases counts with
  | nil => simp [reportStoppedValidatorCounts] at returned
  | cons total stopped =>
      simp only [reportStoppedValidatorCounts, bind_eq_ok, require_eq_ok,
        uadd_eq_ok, usub_eq_ok, pure_eq_ok, LibUint256.min_eq] at returned
      obtain ⟨-, bounded, -, kept, loop, looping, requested, ⟨-, rfl⟩, demand,
        ⟨-, rfl⟩, -, sum, -, -, rfl⟩ := returned
      exact ⟨total, stopped, loop, rfl, bounded, kept, looping, sum, rfl⟩

/-- Unsolicited exits raise the total and answer the demand. -/
theorem reportStoppedValidatorCounts_ok {registry after : OperatorsRegistry}
    {counts : List Nat} {deposited : Nat}
    (accounted : Accounted registry deposited)
    (returned : registry.reportStoppedValidatorCounts counts deposited =
      .ok after) : Accounted after deposited := by
  obtain ⟨total, stopped, loop, rfl, bounded, -, looping, -, rfl⟩ :=
    reportStoppedValidatorCounts_loop returned
  obtain ⟨fundedEq, requestedEq, ordered, length⟩ :=
    stopEach_ok accounted.ordered looping
  have totalBefore := accounted.requested_total
  have demandBefore := accounted.demand
  have fundedBefore := accounted.funded_total
  -- requested exits never exceed funded validators
  have within : requestedSum loop.operators ≤ fundedSum loop.operators :=
    List.sum_le_sum fun operator member => (ordered operator member).requested
  refine ⟨fundedEq.trans fundedBefore, ?_, ordered, ?_, ?_⟩
  · dsimp only at requestedEq ⊢
    omega
  · dsimp only at requestedEq fundedEq ⊢
    omega
  · dsimp only at length ⊢
    rw [length, List.length_cons]
    omega

end OperatorsRegistry

end RiverProtocol
