import RiverProtocol.OperatorsRegistry.Changes
import RiverProtocol.OperatorsRegistry.Progress

/-!
# Runs of the registry

The loops over allocations and stopped counts are solved for each operator, so
that an action of a run is a change of the operators present and, for
`addOperator`, one new operator.
-/

namespace RiverProtocol

open Checked Outcome Lists

/-- The public key and the signature in an entry. -/
def ValidatorKeys.pair (entry : Bytes) : Bytes × Bytes :=
  (entry.take publicKeyLength,
    (entry.drop publicKeyLength).take signatureLength)

theorem ValidatorKeys.split_ok {entry : Bytes} {validator : Bytes × Bytes}
    (returned : ValidatorKeys.split entry = .ok validator) :
    entryLength ≤ entry.length ∧ validator = pair entry := by
  obtain ⟨publicKey, signature⟩ := validator
  obtain ⟨long, rfl, rfl⟩ := OperatorsRegistry.split_eq_ok.mp returned
  exact ⟨long, rfl⟩

theorem ValidatorKeys.getKeys_ok {entries : Nat → Bytes}
    {startIdx amount : Nat} {keys : List (Bytes × Bytes)}
    (returned : ValidatorKeys.getKeys entries startIdx amount = .ok keys) :
    keys = (List.range' startIdx amount).map fun idx => pair (entries idx) := by
  induction amount generalizing startIdx keys with
  | zero =>
      simp only [ValidatorKeys.getKeys, pure_eq_ok] at returned
      exact returned.symm
  | succ amount induction =>
      simp only [ValidatorKeys.getKeys, bind_eq_ok, pure_eq_ok] at returned
      obtain ⟨first, splitting, rest, others, rfl⟩ := returned
      rw [(ValidatorKeys.split_ok splitting).2, induction others]
      rfl

namespace OperatorsRegistry

open ValidatorKeys (entryLength pair)

/-- The validators the allocations give to the operator with this index. -/
def allocatedTo (allocations : List OperatorAllocation) (index : Nat) : Nat :=
  (allocations.map fun allocation =>
    if allocation.operatorIndex = index then allocation.validatorCount
    else 0).sum

theorem allocatedTo_cons (allocation : OperatorAllocation)
    (rest : List OperatorAllocation) (index : Nat) :
    allocatedTo (allocation :: rest) index =
      (if allocation.operatorIndex = index then allocation.validatorCount
        else 0) + allocatedTo rest index :=
  List.sum_cons

theorem allocatedTo_of_absent {allocations : List OperatorAllocation}
    {index : Nat}
    (absent : ∀ allocation ∈ allocations, allocation.operatorIndex ≠ index) :
    allocatedTo allocations index = 0 := by
  induction allocations with
  | nil => rfl
  | cons allocation rest induction =>
      rw [allocatedTo_cons, if_neg (absent _ List.mem_cons_self),
        induction fun other member =>
          absent other (List.mem_cons_of_mem _ member)]

/-- Strictly increasing indexes name every operator at most once. -/
def Increasing (allocations : List OperatorAllocation) : Prop :=
  (allocations.map OperatorAllocation.operatorIndex).Pairwise (· < ·)

theorem allocatedTo_of_mem {allocations : List OperatorAllocation}
    {allocation : OperatorAllocation} (increasing : Increasing allocations)
    (member : allocation ∈ allocations) :
    allocatedTo allocations allocation.operatorIndex =
      allocation.validatorCount := by
  induction allocations with
  | nil => cases member
  | cons first rest induction =>
      rw [Increasing, List.map_cons, List.pairwise_cons] at increasing
      obtain ⟨smallest, others⟩ := increasing
      rw [allocatedTo_cons]
      cases List.mem_cons.mp member with
      | inl same =>
          subst same
          rw [if_pos rfl, allocatedTo_of_absent, Nat.add_zero]
          intro other later
          exact Nat.ne_of_gt (smallest _ (List.mem_map_of_mem later))
      | inr later =>
          have less := smallest _ (List.mem_map_of_mem later)
          rw [if_neg (Nat.ne_of_lt less), induction others later,
            Nat.zero_add]

section Fund

variable {registry after : OperatorsRegistry}

/-- The keys picked for an allocation: the entries of its operator from the
funded count on. -/
structure Picked (registry : OperatorsRegistry)
    (allocation : OperatorAllocation) (keys : List (Bytes × Bytes)) :
    Prop where
  exists_operator : ∃ operator,
    registry.operators[allocation.operatorIndex]? = some operator ∧
      operator.funded + allocation.validatorCount ≤ operator.limit ∧
      keys = (List.range' operator.funded allocation.validatorCount).map
        fun idx =>
          pair (registry.validatorKeys allocation.operatorIndex idx)

theorem Picked.length_eq {allocation : OperatorAllocation}
    {keys : List (Bytes × Bytes)} (picked : Picked registry allocation keys) :
    keys.length = allocation.validatorCount := by
  obtain ⟨operator, -, -, rfl⟩ := picked
  rw [List.length_map, List.length_range']

theorem Picked.length_lt {allocation : OperatorAllocation}
    {keys : List (Bytes × Bytes)} (tiered : registry.Tiered)
    (picked : Picked registry allocation keys) :
    keys.length < uint32Limit := by
  rw [picked.length_eq]
  obtain ⟨operator, found, room, -⟩ := picked
  have counters := tiered.of_found found
  have limit := counters.limit_le
  have keys := counters.keys_lt
  dsimp only at limit keys
  omega

theorem keysForEach_picked {previous : Option Nat}
    {allocations : List OperatorAllocation}
    {perOperator : List (List (Bytes × Bytes))}
    (returned : registry.keysForEach previous allocations =
      .ok perOperator) :
    List.Forall₂ (Picked registry) allocations perOperator ∧
      (previous.toList ++
        allocations.map OperatorAllocation.operatorIndex).IsChain
          (· < ·) := by
  induction allocations generalizing previous perOperator with
  | nil =>
      simp only [keysForEach, pure_eq_ok] at returned
      subst returned
      refine ⟨.nil, ?_⟩
      cases previous <;> simp
  | cons allocation rest induction =>
      simp only [keysForEach, getFundedCountForOperatorIfFundable,
        getOperator, bind_eq_ok, require_eq_ok, fetch_eq_ok, usub_eq_ok,
        pure_eq_ok] at returned
      obtain ⟨-, later, -, -, funded, ⟨operator, found, -, -, -, -, available,
        ⟨enough, rfl⟩, -, bounded, rfl⟩, keys, getting, others, following,
        rfl⟩ := returned
      obtain ⟨picked, chain⟩ := induction following
      refine ⟨.cons ⟨operator, found, by omega,
        ValidatorKeys.getKeys_ok getting⟩ picked, ?_⟩
      cases previous with
      | none => exact chain
      | some last => exact .cons_cons (later last rfl) chain

theorem increasing_of_keysForEach {allocations : List OperatorAllocation}
    {perOperator : List (List (Bytes × Bytes))}
    (returned : registry.keysForEach none allocations = .ok perOperator) :
    Increasing allocations :=
  List.isChain_iff_pairwise.mp (keysForEach_picked returned).2

theorem fundEach_eq {allocations : List OperatorAllocation}
    {perOperator : List (List (Bytes × Bytes))}
    (sized : List.Forall₂ (fun allocation keys =>
      keys.length = allocation.validatorCount ∧ keys.length < uint32Limit)
      allocations perOperator)
    (returned : fundEach (allocations.zip perOperator) registry =
      .ok after) :
    after.validatorKeys = registry.validatorKeys ∧
      after.stoppedValidators = registry.stoppedValidators ∧
      after.operators.length = registry.operators.length ∧
      ∀ (index : Nat) (operator : Operator),
        registry.operators[index]? = some operator →
        after.operators[index]? = some { operator with
          funded := operator.funded + allocatedTo allocations index } := by
  induction sized generalizing registry with
  | nil =>
      simp only [List.zip_nil_left, fundEach, pure_eq_ok] at returned
      subst returned
      exact ⟨rfl, rfl, rfl, fun index operator found => found⟩
  | @cons allocation keys rest others size _ induction =>
      simp only [List.zip_cons_cons, fundEach, getOperator, bind_eq_ok,
        fetch_eq_ok, uadd32_eq_ok] at returned
      obtain ⟨operator, found, funded, ⟨fits, rfl⟩, following⟩ := returned
      obtain ⟨count, small⟩ := size
      rw [toUint32_of_lt small, count] at fits following
      obtain ⟨entries, stopped, length, after⟩ := induction following
      refine ⟨entries, stopped, length.trans List.length_set, ?_⟩
      intro index other present
      rw [allocatedTo_cons]
      by_cases same : allocation.operatorIndex = index
      · subst same
        obtain rfl : operator = other :=
          Option.some.inj (found.symm.trans present)
        have inside := (List.getElem?_eq_some_iff.mp found).1
        rw [if_pos rfl, after _ _ (List.getElem?_set_self inside),
          Nat.add_assoc]
      · rw [if_neg same, Nat.zero_add]
        apply after
        rw [← present]
        exact List.getElem?_set_ne same

/-- What a successful pick returns and funds. -/
structure Pick (registry after : OperatorsRegistry)
    (allocations : List OperatorAllocation)
    (validators : List (Bytes × Bytes)) : Prop where
  increasing : Increasing allocations
  picked : ∃ perOperator,
    List.Forall₂ (Picked registry) allocations perOperator ∧
      validators = perOperator.flatten
  entries : after.validatorKeys = registry.validatorKeys
  stopped : after.stoppedValidators = registry.stoppedValidators
  length_eq : after.operators.length = registry.operators.length
  funded : ∀ (index : Nat) (operator : Operator),
    registry.operators[index]? = some operator →
    after.operators[index]? = some { operator with
      funded := operator.funded + allocatedTo allocations index }

theorem pickNextValidatorsToDeposit_pick
    {allocations : List OperatorAllocation}
    {validators : List (Bytes × Bytes)} (tiered : registry.Tiered)
    (returned : registry.pickNextValidatorsToDeposit allocations =
      .ok (after, validators)) :
    Pick registry after allocations validators := by
  simp only [pickNextValidatorsToDeposit,
    getPerOperatorValidatorKeysForAllocations, bind_eq_ok, pure_eq_ok,
    Prod.mk.injEq] at returned
  obtain ⟨perOperator, ⟨-, -, keys⟩, funded, funding, rfl, rfl⟩ := returned
  obtain ⟨picked, -⟩ := keysForEach_picked keys
  obtain ⟨entries, stopped, length, counts⟩ := fundEach_eq
    (picked.imp fun allocation keys each =>
      ⟨each.length_eq, each.length_lt tiered⟩) funding
  exact ⟨increasing_of_keysForEach keys, ⟨perOperator, picked, rfl⟩, entries,
    stopped, length, counts⟩

theorem Pick.edits {blockNumber : Nat}
    {allocations : List OperatorAllocation}
    {validators : List (Bytes × Bytes)} (tiered : registry.Tiered)
    (pick : Pick registry after allocations validators) :
    Edits (Change blockNumber · (.pickNextValidatorsToDeposit allocations))
      registry after := by
  refine .of_each pick.length_eq pick.entries ?_
  intro index operator found
  have stopped : after.getStoppedValidatorsCount index =
      registry.getStoppedValidatorsCount index := by
    rw [getStoppedValidatorsCount, getStoppedValidatorsCount, pick.stopped]
  refine ⟨_, pick.funded index operator found, ?_⟩
  rw [stopped]
  apply Change.funded
  by_cases named : ∃ allocation ∈ allocations,
      allocation.operatorIndex = index
  · obtain ⟨allocation, member, rfl⟩ := named
    rw [allocatedTo_of_mem pick.increasing member]
    obtain ⟨perOperator, picked, -⟩ := pick.picked
    obtain ⟨keys, -, same, presentSame, room, -⟩ :=
      exists_related_of_mem picked member
    obtain rfl : operator = same :=
      Option.some.inj (found.symm.trans presentSame)
    exact room
  · rw [allocatedTo_of_absent fun allocation member same =>
      named ⟨allocation, member, same⟩]
    exact (tiered.of_found found).funded_le

end Fund

section Exits

variable {registry after : OperatorsRegistry}

theorem requestEachExit_eq {previous : Option Nat} {counted total : Nat}
    {allocations : List OperatorAllocation}
    (ordered : ∀ operator ∈ registry.operators, operator.Ordered)
    (returned : requestEachExit previous counted allocations registry =
      .ok (after, total)) :
    after.validatorKeys = registry.validatorKeys ∧
      ∀ (index : Nat) (operator : Operator),
        registry.operators[index]? = some operator →
        operator.requestedExits + allocatedTo allocations index ≤
            operator.funded ∧
          after.operators[index]? = some { operator with
            requestedExits :=
              operator.requestedExits + allocatedTo allocations index } := by
  induction allocations generalizing previous counted registry with
  | nil =>
      simp only [requestEachExit, pure_eq_ok, Prod.mk.injEq] at returned
      obtain ⟨rfl, rfl⟩ := returned
      refine ⟨rfl, ?_⟩
      intro index operator found
      exact ⟨(ordered_of_found ordered found).requested, found⟩
  | cons allocation rest induction =>
      obtain ⟨operator, found, -, -, orderedNext, following⟩ :=
        requestEachExit_cons ordered returned
      obtain ⟨entries, each⟩ := induction orderedNext following
      refine ⟨entries, ?_⟩
      intro index other present
      rw [allocatedTo_cons]
      by_cases same : allocation.operatorIndex = index
      · subst same
        obtain rfl : operator = other :=
          Option.some.inj (found.symm.trans present)
        have inside := (List.getElem?_eq_some_iff.mp found).1
        rw [if_pos rfl, ← Nat.add_assoc]
        exact each _ _ (List.getElem?_set_self inside)
      · rw [if_neg same, Nat.zero_add]
        apply each
        rw [← present]
        exact List.getElem?_set_ne same

theorem Tiered.ordered (tiered : registry.Tiered) :
    ∀ operator ∈ registry.operators, operator.Ordered := by
  intro operator member
  obtain ⟨index, found⟩ := List.mem_iff_getElem?.mp member
  obtain ⟨keys, limit, funded, requested, -⟩ := tiered.of_found found
  dsimp only at keys limit funded requested
  exact ⟨requested, by omega, keys, by omega⟩

theorem demandValidatorExits_frame {count deposited : Nat}
    (returned : registry.demandValidatorExits count deposited = .ok after) :
    after.operators = registry.operators ∧
      after.validatorKeys = registry.validatorKeys ∧
      after.stoppedValidators = registry.stoppedValidators := by
  simp only [demandValidatorExits, bind_eq_ok] at returned
  obtain ⟨requested, -, room, -, returned⟩ := returned
  split at returned
  · simp only [bind_eq_ok, pure_eq_ok] at returned
    obtain ⟨demand, -, rfl⟩ := returned
    exact ⟨rfl, rfl, rfl⟩
  · simp only [pure_eq_ok] at returned
    subst returned
    exact ⟨rfl, rfl, rfl⟩

theorem requestValidatorExits_edits {blockNumber : Nat}
    {keeper sender : Address} {allocations : List OperatorAllocation}
    (tiered : registry.Tiered)
    (returned : registry.requestValidatorExits keeper sender allocations =
      .ok after) :
    Edits (Change blockNumber ·
        (.requestValidatorExits keeper sender allocations))
      registry after ∧
      after.stoppedValidators = registry.stoppedValidators := by
  simp only [requestValidatorExits, bind_eq_ok, require_eq_ok, usub_eq_ok,
    uadd_eq_ok, pure_eq_ok, Prod.exists] at returned
  obtain ⟨-, -, -, -, -, -, requested, total, requesting, -, -, demand,
    ⟨-, rfl⟩, totalExits, ⟨-, rfl⟩, rfl⟩ := returned
  obtain ⟨-, -, -, length, exits⟩ :=
    requestEachExit_ok tiered.ordered requesting
  obtain ⟨entries, each⟩ := requestEachExit_eq tiered.ordered requesting
  refine ⟨.of_each length entries ?_, exits.stopped⟩
  intro index operator found
  obtain ⟨room, edited⟩ := each index operator found
  have stopped : requested.getStoppedValidatorsCount index =
      registry.getStoppedValidatorsCount index := by
    rw [getStoppedValidatorsCount, getStoppedValidatorsCount, exits.stopped]
  refine ⟨_, edited, ?_⟩
  rw [← stopped]
  exact .exitsRequested room

end Exits

section Stopped

variable {registry after : OperatorsRegistry}

theorem stopOne_eq {loop after : StoppedLoop} {index stoppedCount : Nat}
    (returned : stopOne loop index stoppedCount = .ok after) :
    ∃ operator, loop.operators[index]? = some operator ∧
      stoppedCount ≤ operator.funded ∧
      after.operators = loop.operators.set index { operator with
        requestedExits := max operator.requestedExits stoppedCount } ∧
      after.unsolicitedExitsSum = loop.unsolicitedExitsSum +
        (stoppedCount - operator.requestedExits) := by
  simp only [stopOne, bind_eq_ok, fetch_eq_ok, require_eq_ok, uadd32_eq_ok,
    pure_eq_ok, Prod.exists] at returned
  obtain ⟨operator, found, -, bounded, operators, sum, writing, count, -,
    rfl⟩ := returned
  refine ⟨operator, found, bounded, ?_⟩
  split at writing
  · rename_i more
    simp only [bind_eq_ok, usub_eq_ok, uadd_eq_ok, pure_eq_ok,
      Prod.mk.injEq] at writing
    obtain ⟨unsolicited, ⟨-, rfl⟩, added, ⟨-, rfl⟩, rfl, rfl⟩ := writing
    rw [max_eq_right (Nat.le_of_lt more)]
    exact ⟨rfl, rfl⟩
  · rename_i fewer
    simp only [pure_eq_ok, Prod.mk.injEq] at writing
    obtain ⟨rfl, rfl⟩ := writing
    have fewer := Nat.le_of_not_lt fewer
    rw [max_eq_left fewer, Nat.sub_eq_zero_of_le fewer]
    obtain ⟨inside, rfl⟩ := List.getElem?_eq_some_iff.mp found
    exact ⟨(List.set_getElem_self inside).symm, rfl⟩

/-- The reported count of each operator, or zero where none is reported, is
its stopped count and at least its requested exits. -/
theorem stopEach_eq {index : Nat} {counts current : List Nat}
    {loop after : StoppedLoop} (longer : current.length ≤ counts.length)
    (returned : stopEach index counts current loop = .ok after) :
    (∀ position < index,
        after.operators[position]? = loop.operators[position]?) ∧
      ∀ (position : Nat) (operator : Operator),
        loop.operators[index + position]? = some operator →
        (current[position]?).getD 0 ≤ (counts[position]?).getD 0 ∧
          (counts[position]?).getD 0 ≤ operator.funded ∧
          after.operators[index + position]? = some { operator with
            requestedExits :=
              max operator.requestedExits ((counts[position]?).getD 0) } := by
  induction counts generalizing index current loop with
  | nil =>
      obtain rfl := List.eq_nil_of_length_eq_zero (Nat.le_zero.mp longer)
      simp only [stopEach, pure_eq_ok] at returned
      subst returned
      refine ⟨fun _ _ => rfl, ?_⟩
      intro position operator found
      simpa using found
  | cons stoppedCount counts induction =>
      have first : (current[0]?).getD 0 ≤ stoppedCount ∧
          ∃ next, stopOne loop index stoppedCount = .ok next ∧
            stopEach (index + 1) counts current.tail next = .ok after := by
        cases current with
        | nil =>
            simp only [stopEach, bind_eq_ok] at returned
            exact ⟨Nat.zero_le _, returned⟩
        | cons currentCount current =>
            simp only [stopEach, bind_eq_ok, require_eq_ok] at returned
            obtain ⟨-, grown, rest⟩ := returned
            exact ⟨grown, rest⟩
      obtain ⟨grown, next, stopping, remaining⟩ := first
      obtain ⟨operator, found, bounded, operators, -⟩ := stopOne_eq stopping
      have inside := (List.getElem?_eq_some_iff.mp found).1
      obtain ⟨before, behind⟩ := induction
        (by rw [List.length_tail]; exact Nat.sub_le_of_le_add longer)
        remaining
      refine ⟨?_, ?_⟩
      · intro position earlier
        rw [before position (Nat.lt_succ_of_lt earlier), operators,
          List.getElem?_set_ne (Nat.ne_of_gt earlier)]
      · intro position other present
        cases position with
        | zero =>
            obtain rfl : operator = other :=
              Option.some.inj (found.symm.trans present)
            refine ⟨grown, bounded, ?_⟩
            rw [Nat.add_zero, before index (Nat.lt_succ_self _), operators,
              List.getElem?_set_self inside]
            rfl
        | succ position =>
            have shifted : index + (position + 1) = index + 1 + position := by
              omega
            rw [shifted] at present ⊢
            have unwritten :
                next.operators[index + 1 + position]? = some other := by
              rw [operators, List.getElem?_set_ne (by omega)]
              exact present
            have rest := behind position other unwritten
            rw [List.getElem?_tail] at rest
            exact rest

/-- The reported stopped validators whose exit was never requested. -/
def unsolicited (operators : List Operator) (counts : List Nat) : Nat :=
  ((operators.zip counts).map fun (operator, count) =>
    count - operator.requestedExits).sum

theorem stopEach_unsolicited {index : Nat} {counts current : List Nat}
    {loop after : StoppedLoop}
    (returned : stopEach index counts current loop = .ok after) :
    after.unsolicitedExitsSum = loop.unsolicitedExitsSum +
      unsolicited (loop.operators.drop index) counts := by
  induction counts generalizing index current loop with
  | nil =>
      simp only [stopEach, pure_eq_ok] at returned
      subst returned
      simp [unsolicited]
  | cons stoppedCount counts induction =>
      obtain ⟨next, rest, stopping, remaining⟩ := stopEach_cons returned
      obtain ⟨operator, found, -, operators, sum⟩ := stopOne_eq stopping
      have behind : loop.operators.drop index =
          operator :: loop.operators.drop (index + 1) := by
        obtain ⟨inside, rfl⟩ := List.getElem?_eq_some_iff.mp found
        exact List.drop_eq_getElem_cons inside
      have unwritten : next.operators.drop (index + 1) =
          loop.operators.drop (index + 1) := by
        rw [operators]
        exact List.drop_set_of_lt (Nat.lt_succ_self index)
      rw [induction remaining, sum, unwritten, behind, Nat.add_assoc]
      rfl

/-- Each unsolicited exit raises the total by one and answers one demanded
exit while there is one. -/
theorem reportStoppedValidatorCounts_totals {total deposited : Nat}
    {counts : List Nat}
    (returned : registry.reportStoppedValidatorCounts (total :: counts)
      deposited = .ok after) :
    after.totalValidatorExitsRequested =
        registry.totalValidatorExitsRequested +
          unsolicited registry.operators counts ∧
      after.currentValidatorExitsDemand =
        registry.currentValidatorExitsDemand -
          min (unsolicited registry.operators counts)
            registry.currentValidatorExitsDemand := by
  obtain ⟨_, _, loop, same, -, -, looping, -, rfl⟩ :=
    reportStoppedValidatorCounts_loop returned
  obtain ⟨rfl, rfl⟩ := List.cons.inj same
  have sum := stopEach_unsolicited looping
  rw [Nat.zero_add, List.drop_zero] at sum
  dsimp only at sum ⊢
  rw [sum]
  exact ⟨rfl, rfl⟩

theorem reportStoppedValidatorCounts_edits {blockNumber deposited : Nat}
    {counts : List Nat} (tiered : registry.Tiered)
    (returned : registry.reportStoppedValidatorCounts counts deposited =
      .ok after) :
    Edits (Change blockNumber ·
        (.reportStoppedValidatorCounts counts deposited)) registry after ∧
      (∀ total stopped, after.stoppedValidators = total :: stopped →
        total = stopped.sum) ∧
      after.stoppedValidators = counts ∧
      counts.length ≤ registry.operators.length + 1 ∧
      registry.stoppedValidators.length ≤ counts.length := by
  obtain ⟨total, stopped, loop, rfl, bounded, kept, looping, sum, rfl⟩ :=
    reportStoppedValidatorCounts_loop returned
  obtain ⟨-, -, -, length⟩ := stopEach_ok tiered.ordered looping
  obtain ⟨-, each⟩ := stopEach_eq
    (by rw [List.length_tail]; exact Nat.sub_le_of_le_add kept) looping
  refine ⟨.of_each length rfl ?_, ?_, rfl, Nat.succ_le_succ bounded, kept⟩
  · intro index operator found
    obtain ⟨grown, funded, edited⟩ :=
      each index operator (by rwa [Nat.zero_add])
    rw [Nat.zero_add] at edited
    rw [List.getElem?_tail] at grown
    exact ⟨_, edited, .stopped grown funded⟩
  · intro first rest same
    cases same
    rw [sum, stopEach_count looping, Nat.zero_add]

end Stopped

/-- The operator `addOperator` creates. -/
structure Newcomer (blockNumber : Nat) (operator : Operator) : Prop where
  limit : operator.limit = 0
  funded : operator.funded = 0
  requestedExits : operator.requestedExits = 0
  keys : operator.keys = 0
  latest : operator.latestKeysEditBlockNumber = toUint64 blockNumber

/-- The operators present change as the relation allows, new ones start from
zero, and the array of stopped counts does not shrink. -/
structure Evolves (change : Nat → Holding → Holding → Prop)
    (blockNumber : Nat) (registry after : OperatorsRegistry) : Prop where
  length_le : registry.operators.length ≤ after.operators.length
  changed : ∀ index holding, registry.holding index = some holding →
    ∃ later, after.holding index = some later ∧
      Relation.ReflTransGen (change index) holding later
  added : ∀ (index : Nat) (operator : Operator),
    registry.operators.length ≤ index →
    after.operators[index]? = some operator → Newcomer blockNumber operator
  stopped_length :
    registry.stoppedValidators.length ≤ after.stoppedValidators.length
  stopped_within :
    registry.stoppedValidators.length ≤ registry.operators.length + 1 →
    after.stoppedValidators.length ≤ registry.operators.length + 1
  stopped_sum : (∀ total counts,
      registry.stoppedValidators = total :: counts → total = counts.sum) →
    ∀ total counts, after.stoppedValidators = total :: counts →
      total = counts.sum

section Action

variable {registry after : OperatorsRegistry} {blockNumber : Nat}
  {change : Nat → Holding → Holding → Prop}

theorem Edits.evolves (edits : Edits change registry after)
    (stopped : after.stoppedValidators = registry.stoppedValidators) :
    Evolves change blockNumber registry after where
  length_le := Nat.le_of_eq edits.length_eq.symm
  changed := edits.changed
  added index operator outside found := by
    have inside := (List.getElem?_eq_some_iff.mp found).1
    rw [edits.length_eq] at inside
    omega
  stopped_length := by rw [stopped]
  stopped_within bounded := by rwa [stopped]
  stopped_sum summed := by rwa [stopped]

theorem sameExits_of_managed
    (managed : Relation.ReflTransGen Managed registry after) :
    SameExits registry after := by
  induction managed with
  | refl => exact ⟨rfl, rfl, rfl⟩
  | tail _ write induction =>
      cases write with
      | kept _ exits => exact induction.trans exits
      | edit _ _ _ _ _ exits => exact induction.trans exits
      | add _ _ _ _ _ exits => exact induction.trans exits

theorem addOperator_evolves {sender operator : Address} {name : String}
    {index : Nat}
    (returned : registry.addOperator sender blockNumber name operator =
      .ok (after, index)) : Evolves change blockNumber registry after := by
  simp only [addOperator, bind_eq_ok, pure_eq_ok, Prod.mk.injEq] at returned
  obtain ⟨-, -, -, -, -, -, rfl, -⟩ := returned
  refine ⟨by simp, ?_, ?_, Nat.le_refl _, id, id⟩
  · intro index holding held
    refine ⟨holding, ?_, .refl⟩
    have inside : index < registry.operators.length := by
      rw [OperatorsRegistry.holding, Option.map_eq_some_iff] at held
      obtain ⟨present, found, -⟩ := held
      exact (List.getElem?_eq_some_iff.mp found).1
    rw [← held, OperatorsRegistry.holding, OperatorsRegistry.holding]
    dsimp only
    rw [List.getElem?_append_left inside]
    rfl
  · intro index added outside found
    rcases getElem?_concat_cases found with present | ⟨-, rfl⟩
    · have inside := (List.getElem?_eq_some_iff.mp present).1
      omega
    · exact ⟨rfl, rfl, rfl, rfl, rfl⟩

theorem Action.apply_evolves {action : Action}
    {validators : List (Bytes × Bytes)} (tiered : registry.Tiered)
    (returned : action.apply registry blockNumber =
      .ok (after, validators)) :
    Evolves (Change blockNumber · action) blockNumber registry after := by
  cases action with
  | manage sender call =>
      simp only [Action.apply, bind_eq_ok, pure_eq_ok, Prod.mk.injEq]
        at returned
      obtain ⟨managed, calling, rfl, -⟩ := returned
      by_cases adds : ∃ name operator, call = .addOperator name operator
      · obtain ⟨name, operator, rfl⟩ := adds
        simp only [Call.apply, bind_eq_ok, pure_eq_ok, Prod.exists]
          at calling
        obtain ⟨_, index, adding, rfl⟩ := calling
        exact addOperator_evolves adding
      · have edits : Edits (Change blockNumber · (.manage sender call))
            registry managed :=
          Call.apply_edits tiered calling fun name operator same =>
            adds ⟨name, operator, same⟩
        exact edits.evolves
          (sameExits_of_managed (Call.apply_managed calling)).stopped
  | pickNextValidatorsToDeposit allocations =>
      have pick := pickNextValidatorsToDeposit_pick tiered returned
      exact (pick.edits tiered).evolves pick.stopped
  | requestValidatorExits keeper sender allocations =>
      simp only [Action.apply, bind_eq_ok, pure_eq_ok, Prod.mk.injEq]
        at returned
      obtain ⟨requested, requesting, rfl, -⟩ := returned
      obtain ⟨edits, stopped⟩ :=
        requestValidatorExits_edits tiered requesting
      exact edits.evolves stopped
  | demandValidatorExits count deposited =>
      simp only [Action.apply, bind_eq_ok, pure_eq_ok, Prod.mk.injEq]
        at returned
      obtain ⟨demanded, demanding, rfl, -⟩ := returned
      obtain ⟨same, entries, stopped⟩ := demandValidatorExits_frame demanding
      exact (Edits.of_same same entries stopped).evolves stopped
  | reportStoppedValidatorCounts counts deposited =>
      simp only [Action.apply, bind_eq_ok, pure_eq_ok, Prod.mk.injEq]
        at returned
      obtain ⟨reported, reporting, rfl, -⟩ := returned
      obtain ⟨edits, summed, stored, bounded, kept⟩ :=
        reportStoppedValidatorCounts_edits tiered reporting
      refine ⟨Nat.le_of_eq edits.length_eq.symm, edits.changed, ?_, ?_, ?_,
        fun _ => summed⟩
      · intro index operator outside found
        have inside := (List.getElem?_eq_some_iff.mp found).1
        rw [edits.length_eq] at inside
        omega
      · rwa [stored]
      · intro _
        rwa [stored]

theorem getStoppedValidatorsCount_of_length {index : Nat}
    (bounded : registry.stoppedValidators.length ≤ index + 1) :
    registry.getStoppedValidatorsCount index = 0 := by
  rw [getStoppedValidatorsCount, List.getElem?_eq_none bounded]
  rfl

theorem Evolves.added_holding {index : Nat} {holding : Holding}
    (evolves : Evolves change blockNumber registry after)
    (tiered : registry.Tiered)
    (outside : registry.operators.length ≤ index)
    (held : after.holding index = some holding) :
    Newcomer blockNumber holding.operator ∧ holding.stopped = 0 := by
  rw [OperatorsRegistry.holding, Option.map_eq_some_iff] at held
  obtain ⟨operator, found, rfl⟩ := held
  refine ⟨evolves.added index operator outside found, ?_⟩
  apply getStoppedValidatorsCount_of_length
  have within := evolves.stopped_within tiered.stopped_length
  omega

theorem Tiered.of_evolves {action : Action} (tiered : registry.Tiered)
    (evolves : Evolves (Change blockNumber · action) blockNumber registry
      after) : after.Tiered where
  holdings index holding held := by
    by_cases inside : index < registry.operators.length
    · have found : registry.operators[index]? =
          some registry.operators[index] := List.getElem?_eq_getElem inside
      have before : registry.holding index = some
          { operator := registry.operators[index]
            entries := registry.validatorKeys index
            stopped := registry.getStoppedValidatorsCount index } := by
        rw [OperatorsRegistry.holding, found]
        rfl
      obtain ⟨later, heldLater, changes⟩ := evolves.changed index _ before
      obtain rfl : later = holding :=
        Option.some.inj (heldLater.symm.trans held)
      clear heldLater held
      induction changes with
      | refl => exact tiered.of_found found
      | tail _ change induction => exact change.tiered induction
    · obtain ⟨newcomer, stopped⟩ :=
        evolves.added_holding tiered (Nat.le_of_not_lt inside) held
      obtain ⟨limit, funded, requested, keys, -⟩ := newcomer
      have positive : 0 < uint32Limit := by decide
      constructor <;> omega
  stopped_length := (evolves.stopped_within tiered.stopped_length).trans
    (Nat.succ_le_succ evolves.length_le)
  stopped_sum := evolves.stopped_sum tiered.stopped_sum

theorem Tiered.of_apply {action : Action}
    {validators : List (Bytes × Bytes)} (tiered : registry.Tiered)
    (returned : action.apply registry blockNumber =
      .ok (after, validators)) : after.Tiered :=
  tiered.of_evolves (Action.apply_evolves tiered returned)

theorem Reachable.tiered (reachable : registry.Reachable) :
    registry.Tiered := by
  obtain ⟨admin, run⟩ := reachable
  induction run with
  | refl => exact tiered_fresh admin
  | tail _ step induction =>
      obtain ⟨action, block, validators, returned⟩ := step
      exact induction.of_apply returned

end Action

/-- A successful action in its block, with the registry around it. -/
structure Transaction where
  blockNumber : Nat
  action : Action
  before : OperatorsRegistry
  after : OperatorsRegistry
  validators : List (Bytes × Bytes)

/-- The transactions of a run of a fresh registry, in order. -/
inductive History (admin : Address) :
    List Transaction → OperatorsRegistry → Prop where
  | start : History admin [] (fresh admin)
  | next {history : List Transaction} {registry after : OperatorsRegistry}
      {action : Action} {blockNumber : Nat}
      {validators : List (Bytes × Bytes)} :
      History admin history registry →
      action.apply registry blockNumber = .ok (after, validators) →
      History admin (history ++
        [{ blockNumber := blockNumber
           action := action
           before := registry
           after := after
           validators := validators }]) after

theorem History.reachable {admin : Address} {history : List Transaction}
    {registry : OperatorsRegistry} (run : History admin history registry) :
    registry.Reachable := by
  induction run with
  | start => exact ⟨admin, .refl⟩
  | next _ returned induction =>
      obtain ⟨origin, steps⟩ := induction
      exact ⟨origin, steps.tail ⟨_, _, _, returned⟩⟩

/-- The history a list of actions appends. -/
def replay (history : List Transaction) (registry : OperatorsRegistry) :
    List (Nat × Action) →
    Except Error (List Transaction × OperatorsRegistry)
  | [] => return (history, registry)
  | (blockNumber, action) :: rest => do
    let (after, validators) ← action.apply registry blockNumber
    replay (history ++
      [{ blockNumber := blockNumber
         action := action
         before := registry
         after := after
         validators := validators }]) after rest

theorem History.replay {admin : Address} {history later : List Transaction}
    {registry after : OperatorsRegistry} {actions : List (Nat × Action)}
    (run : History admin history registry)
    (returned : replay history registry actions = .ok (later, after)) :
    History admin later after := by
  induction actions generalizing history registry with
  | nil =>
      simp only [OperatorsRegistry.replay, pure_eq_ok, Prod.mk.injEq]
        at returned
      obtain ⟨rfl, rfl⟩ := returned
      exact run
  | cons first rest induction =>
      simp only [OperatorsRegistry.replay, bind_eq_ok, Prod.exists]
        at returned
      obtain ⟨middle, validators, applied, remaining⟩ := returned
      exact induction (run.next applied) remaining

theorem replay_actions {history later : List Transaction}
    {registry after : OperatorsRegistry} {actions : List (Nat × Action)}
    (returned : replay history registry actions = .ok (later, after)) :
    later.map (fun transaction =>
        (transaction.blockNumber, transaction.action)) =
      history.map (fun transaction =>
        (transaction.blockNumber, transaction.action)) ++ actions := by
  induction actions generalizing history registry with
  | nil =>
      simp only [replay, pure_eq_ok, Prod.mk.injEq] at returned
      rw [← returned.1, List.append_nil]
  | cons first rest induction =>
      simp only [replay, bind_eq_ok, Prod.exists] at returned
      obtain ⟨middle, validators, applied, remaining⟩ := returned
      rw [induction remaining, List.map_append, List.append_assoc]
      rfl

section Sample

/-- Three entries whose bytes count upwards. -/
def sampleEntries : Bytes :=
  (List.range (3 * entryLength)).map UInt8.ofNat

/-- Three keys, two of them within the limit, one of these funded, exited and
the last one removed. -/
def sampleActions : List (Nat × Action) :=
  [(1, .manage .zero (.addOperator "operator" (.ofNat 1))),
    (2, .manage .zero (.addValidators 0 3 sampleEntries)),
    (3, .manage .zero (.setOperatorLimits [0] [2] 2)),
    (4, .pickNextValidatorsToDeposit [⟨0, 1⟩]),
    (5, .reportStoppedValidatorCounts [1, 1] 1),
    (6, .manage .zero (.removeValidators 0 [2]))]

def sampleHistory :
    Except Error (List Transaction × OperatorsRegistry) :=
  replay [] (fresh .zero) sampleActions

end Sample

end OperatorsRegistry

end RiverProtocol
