import RiverProtocol.OperatorsRegistry.Runs

/-!
# The order of an operator's counters

Every operation checks a fragment of the order; together they keep the keys
above the limit, the limit above the funded validators, these above the
requested exits and these above the stopped validators.
-/

namespace RiverProtocol

open Checked Outcome Lists

namespace OperatorsRegistry

section Change

variable {blockNumber index : Nat} {action : Action}
  {holding later : Holding}

theorem Change.funded_le (change : Change blockNumber index action holding
      later) : holding.operator.funded ≤ later.operator.funded := by
  cases change with
  | renamed _ funded => exact Nat.le_of_eq funded.symm
  | limited => exact Nat.le_refl _
  | keysAdded => exact Nat.le_refl _
  | keysRemoved => exact Nat.le_refl _
  | funded => exact Nat.le_add_right _ _
  | exitsRequested => exact Nat.le_refl _
  | stopped => exact Nat.le_refl _

theorem Change.stopped_le (change : Change blockNumber index action holding
      later) : holding.stopped ≤ later.stopped := by
  cases change with
  | stopped grown => exact grown
  | _ => exact Nat.le_refl _

end Change

/-- What never decreases from one registry to a later one. -/
structure Grows (registry after : OperatorsRegistry) : Prop where
  stopped_length :
    registry.stoppedValidators.length ≤ after.stoppedValidators.length
  operators : ∀ index holding, registry.holding index = some holding →
    ∃ later, after.holding index = some later ∧
      holding.operator.funded ≤ later.operator.funded ∧
      holding.stopped ≤ later.stopped

theorem Grows.refl (registry : OperatorsRegistry) : Grows registry registry
    where
  stopped_length := Nat.le_refl _
  operators _ holding held :=
    ⟨holding, held, Nat.le_refl _, Nat.le_refl _⟩

theorem Grows.trans {registry middle after : OperatorsRegistry}
    (first : Grows registry middle) (second : Grows middle after) :
    Grows registry after where
  stopped_length := first.stopped_length.trans second.stopped_length
  operators index holding held := by
    obtain ⟨next, heldNext, funded, stopped⟩ :=
      first.operators index holding held
    obtain ⟨later, heldLater, fundedLater, stoppedLater⟩ :=
      second.operators index next heldNext
    exact ⟨later, heldLater, funded.trans fundedLater,
      stopped.trans stoppedLater⟩

theorem Evolves.grows {registry after : OperatorsRegistry}
    {blockNumber : Nat} {action : Action}
    (evolves : Evolves (Change blockNumber · action) blockNumber registry
      after) : Grows registry after where
  stopped_length := evolves.stopped_length
  operators index holding held := by
    obtain ⟨later, heldLater, changes⟩ := evolves.changed index holding held
    refine ⟨later, heldLater, ?_⟩
    clear heldLater
    induction changes with
    | refl => exact ⟨Nat.le_refl _, Nat.le_refl _⟩
    | tail _ change induction =>
        exact ⟨induction.1.trans change.funded_le,
          induction.2.trans change.stopped_le⟩

theorem grows_of_run {registry after : OperatorsRegistry}
    (tiered : registry.Tiered)
    (run : Relation.ReflTransGen Step registry after) :
    Grows registry after ∧ after.Tiered := by
  induction run with
  | refl => exact ⟨.refl registry, tiered⟩
  | tail _ step induction =>
      obtain ⟨action, block, validators, returned⟩ := step
      obtain ⟨grown, tieredMiddle⟩ := induction
      have evolves := Action.apply_evolves tieredMiddle returned
      exact ⟨grown.trans evolves.grows, tieredMiddle.of_evolves evolves⟩

/-- The values an action casts to 32 bits. -/
def Action.castTo32 (action : Action) (registry : OperatorsRegistry) :
    List Nat :=
  match action with
  | .manage _ (.addValidators index _ _) =>
    (registry.operators[index]?.map Operator.keys).toList
  | .manage _ (.removeValidators _ indexes) =>
    indexes.length :: indexes.getLast?.toList
  | .pickNextValidatorsToDeposit allocations =>
    match registry.getPerOperatorValidatorKeysForAllocations allocations with
    | .ok perOperator => perOperator.map List.length
    | .error _ => []
  | .requestValidatorExits _ _ allocations =>
    allocations.map OperatorAllocation.validatorCount
  | _ => []

section Casts

variable {registry after : OperatorsRegistry} {blockNumber : Nat}

theorem requestEachExit_counts {previous : Option Nat}
    {counted total : Nat} {allocations : List OperatorAllocation}
    (ordered : ∀ operator ∈ registry.operators, operator.Ordered)
    (returned : requestEachExit previous counted allocations registry =
      .ok (after, total)) :
    ∀ allocation ∈ allocations, allocation.validatorCount < uint32Limit := by
  induction allocations generalizing previous counted registry with
  | nil => simp
  | cons first rest induction =>
      obtain ⟨operator, found, -, room, orderedNext, following⟩ :=
        requestEachExit_cons ordered returned
      have width := (ordered_of_found ordered found).funded
      intro allocation member
      rcases List.mem_cons.mp member with rfl | later
      · omega
      · exact induction orderedNext following allocation later

theorem removeValidators_counts {sender : Address} {index : Nat}
    {indexes : List Nat} (tiered : registry.Tiered)
    (returned : registry.removeValidators sender blockNumber index indexes =
      .ok after) :
    indexes.length < uint32Limit ∧
      ∀ lastIndex ∈ indexes.getLast?, lastIndex < uint32Limit := by
  obtain ⟨operator, found⟩ := removeValidators_found returned
  have small : operator.keys < uint32Limit := (tiered.of_found found).keys_lt
  obtain ⟨-, -, -, -, removable, -⟩ :=
    (removeValidators_eq_ok found small).mp returned
  refine ⟨removable.length_le.trans_lt small, ?_⟩
  intro lastIndex last
  exact (removable.below lastIndex (List.mem_of_getLast? last)).trans small

/-- No cast of a successful action drops a bit. -/
theorem Action.castTo32_lt {action : Action}
    {validators : List (Bytes × Bytes)} (tiered : registry.Tiered)
    (returned : action.apply registry blockNumber =
      .ok (after, validators)) :
    ∀ value ∈ action.castTo32 registry, value < uint32Limit := by
  cases action with
  | manage sender call =>
      simp only [Action.apply, bind_eq_ok, pure_eq_ok, Prod.mk.injEq]
        at returned
      obtain ⟨managed, calling, rfl, -⟩ := returned
      cases call with
      | addValidators index keyCount bytes =>
          intro value member
          rw [Action.castTo32, Option.mem_toList,
            Option.map_eq_some_iff] at member
          obtain ⟨operator, found, rfl⟩ := member
          exact (tiered.of_found found).keys_lt
      | removeValidators index indexes =>
          obtain ⟨length, last⟩ := removeValidators_counts tiered calling
          intro value member
          cases List.mem_cons.mp member with
          | inl same => exact same ▸ length
          | inr listed => exact last value (Option.mem_toList.mp listed)
      | _ => simp [Action.castTo32]
  | pickNextValidatorsToDeposit allocations =>
      simp only [Action.apply,
        OperatorsRegistry.pickNextValidatorsToDeposit, bind_eq_ok]
        at returned
      obtain ⟨perOperator, getting, -⟩ := returned
      have keys : registry.keysForEach none allocations = .ok perOperator := by
        simp only [getPerOperatorValidatorKeysForAllocations, bind_eq_ok]
          at getting
        obtain ⟨-, -, keys⟩ := getting
        exact keys
      intro value member
      simp only [Action.castTo32, getting, List.mem_map] at member
      obtain ⟨part, partOf, rfl⟩ := member
      exact (keysForEach_ok tiered.ordered keys).2 part partOf
  | requestValidatorExits keeper sender allocations =>
      simp only [Action.apply, OperatorsRegistry.requestValidatorExits,
        bind_eq_ok, pure_eq_ok, Prod.exists] at returned
      obtain ⟨_, ⟨-, -, -, -, -, -, requested, total, requesting, -⟩, -⟩ :=
        returned
      intro value member
      obtain ⟨allocation, listed, rfl⟩ := List.mem_map.mp member
      exact requestEachExit_counts tiered.ordered requesting allocation listed
  | demandValidatorExits count deposited => simp [Action.castTo32]
  | reportStoppedValidatorCounts counts deposited => simp [Action.castTo32]

end Casts

/-- In every reachable registry an operator's counters are in order and the
stopped counts add up, and no later run decreases them or drops a bit. -/
theorem counters_of_reachable {registry : OperatorsRegistry}
    (reachable : registry.Reachable) :
    (∀ (index : Nat) (operator : Operator),
      registry.operators[index]? = some operator →
      operator.limit ≤ operator.keys ∧
        operator.funded ≤ operator.limit ∧
        operator.requestedExits ≤ operator.funded ∧
        registry.getStoppedValidatorsCount index ≤
          operator.requestedExits) ∧
    (∀ total counts, registry.stoppedValidators = total :: counts →
      total = counts.sum ∧ counts.length ≤ registry.operators.length) ∧
    (∀ after, Relation.ReflTransGen Step registry after →
      registry.stoppedValidators.length ≤ after.stoppedValidators.length ∧
      (∀ index, registry.getStoppedValidatorsCount index ≤
        after.getStoppedValidatorsCount index) ∧
      ∀ (index : Nat) (operator : Operator),
        registry.operators[index]? = some operator →
        ∃ later, after.operators[index]? = some later ∧
          operator.funded ≤ later.funded) ∧
    ∀ (action : Action) (blockNumber : Nat) (after : OperatorsRegistry)
      (validators : List (Bytes × Bytes)),
      action.apply registry blockNumber = .ok (after, validators) →
      ∀ value ∈ action.castTo32 registry, toUint32 value = value := by
  have tiered := reachable.tiered
  refine ⟨?_, ?_, ?_, ?_⟩
  · intro index operator found
    obtain ⟨-, limit, funded, requested, stopped⟩ := tiered.of_found found
    exact ⟨limit, funded, requested, stopped⟩
  · intro total counts stored
    have bounded := tiered.stopped_length
    rw [stored] at bounded
    exact ⟨tiered.stopped_sum total counts stored,
      Nat.le_of_succ_le_succ bounded⟩
  · intro after run
    obtain ⟨grows, -⟩ := grows_of_run tiered run
    refine ⟨grows.stopped_length, ?_, ?_⟩
    · intro index
      by_cases inside : index < registry.operators.length
      · obtain ⟨later, held, -, stopped⟩ := grows.operators index _
          (by rw [holding, List.getElem?_eq_getElem inside]; rfl)
        rw [holding, Option.map_eq_some_iff] at held
        obtain ⟨operator, -, rfl⟩ := held
        exact stopped
      · rw [getStoppedValidatorsCount_of_length]
        · exact Nat.zero_le _
        · exact tiered.stopped_length.trans (by omega)
    · intro index operator found
      obtain ⟨later, held, funded, -⟩ := grows.operators index _
        (by rw [holding, found]; rfl)
      rw [holding, Option.map_eq_some_iff] at held
      obtain ⟨present, foundLater, rfl⟩ := held
      exact ⟨present, foundLater, funded⟩
  · intro action blockNumber after validators returned value member
    exact toUint32_of_lt
      (Action.castTo32_lt tiered returned value member)

theorem counters_of_reachable_sample :
    ∃ history registry, sampleHistory = .ok (history, registry) ∧
      registry.operators.map Operator.keys = [2] ∧
      (∀ operator, registry.operators[0]? = some operator →
        operator.requestedExits ≤ operator.funded) ∧
      ∀ after, Relation.ReflTransGen Step registry after →
        1 ≤ after.getStoppedValidatorsCount 0 := by
  have checked : returns sampleHistory (fun result =>
      result.2.operators.map Operator.keys = [2] ∧
        result.2.getStoppedValidatorsCount 0 = 1) = true := by
    decide +kernel
  obtain ⟨⟨history, registry⟩, returned, facts⟩ := returns_iff.mp checked
  obtain ⟨keys, stopped⟩ := of_decide_eq_true facts
  have run : History .zero history registry := History.start.replay returned
  obtain ⟨ordered, -, grows, -⟩ := counters_of_reachable run.reachable
  refine ⟨history, registry, returned, keys, ?_, ?_⟩
  · intro operator found
    exact (ordered 0 operator found).2.2.1
  · intro after later
    rw [← stopped]
    exact (grows after later).2.1 0

end OperatorsRegistry

end RiverProtocol
