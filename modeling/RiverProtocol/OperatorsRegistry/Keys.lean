import RiverProtocol.OperatorsRegistry.Counters

/-!
# Funded keys

An entry below the funded count is never written again, and a pick returns the
entries right above it.  So no position is returned twice in a history, and
what is returned was laid out in an earlier `addValidators`.
-/

namespace RiverProtocol

open Checked Outcome Lists

namespace OperatorsRegistry

open ValidatorKeys (entryLength entryAt pair publicKeyLength signatureLength)

section Change

variable {blockNumber index : Nat} {action : Action}
  {holding later : Holding}

theorem Change.entries_below_funded
    (change : Change blockNumber index action holding later)
    (tiered : holding.Tiered) :
    ∀ position < holding.operator.funded,
      later.entries position = holding.entries position := by
  intro position funded
  cases change with
  | keysAdded length fits laidOut =>
      have above : position < holding.operator.keys :=
        funded.trans_le (tiered.funded_le.trans tiered.limit_le)
      dsimp only
      rw [laidOut position, if_neg (by omega)]
  | keysRemoved aboveFunded inside count kept moved limit =>
      exact kept position (funded.trans_le aboveFunded)
  | _ => rfl

/-- Every entry comes from an earlier one or from the bytes of the call. -/
theorem Change.entries_from {property : Bytes → Prop}
    (change : Change blockNumber index action holding later)
    (before : ∀ position < holding.operator.keys,
      property (holding.entries position))
    (laid : ∀ sender keyCount bytes position,
      action = .manage sender (.addValidators index keyCount bytes) →
      bytes.length = keyCount * entryLength → position < keyCount →
      property (entryAt bytes position)) :
    ∀ position < later.operator.keys, property (later.entries position) := by
  intro position present
  cases change with
  | renamed _ _ _ keys =>
      dsimp only at present
      rw [keys] at present
      exact before position present
  | keysAdded length fits laidOut =>
      dsimp only at present ⊢
      rw [laidOut position]
      split
      · apply laid _ _ _ _ rfl length
        omega
      · exact before position (by omega)
  | keysRemoved aboveFunded inside count kept moved limit =>
      obtain ⟨origin, stored, same⟩ := moved position present
      dsimp only
      rw [same]
      exact before origin stored
  | _ => exact before position present

end Change

/-- The entries below the funded counts are kept. -/
def KeepsFunded (registry after : OperatorsRegistry) : Prop :=
  ∀ index holding, registry.holding index = some holding →
    ∃ later, after.holding index = some later ∧
      holding.operator.funded ≤ later.operator.funded ∧
      ∀ position < holding.operator.funded,
        later.entries position = holding.entries position

theorem KeepsFunded.trans {registry middle after : OperatorsRegistry}
    (first : KeepsFunded registry middle)
    (second : KeepsFunded middle after) : KeepsFunded registry after := by
  intro index holding held
  obtain ⟨next, heldNext, funded, kept⟩ := first index holding held
  obtain ⟨later, heldLater, fundedLater, keptLater⟩ :=
    second index next heldNext
  refine ⟨later, heldLater, funded.trans fundedLater, ?_⟩
  intro position below
  rw [keptLater position (below.trans_le funded), kept position below]

theorem Evolves.keepsFunded {registry after : OperatorsRegistry}
    {blockNumber : Nat} {action : Action} (tiered : registry.Tiered)
    (evolves : Evolves (Change blockNumber · action) blockNumber registry
      after) : KeepsFunded registry after := by
  intro index holding held
  obtain ⟨later, heldLater, changes⟩ := evolves.changed index holding held
  refine ⟨later, heldLater, ?_⟩
  have counters := tiered.holdings index holding held
  clear heldLater held
  have kept : later.Tiered ∧
      holding.operator.funded ≤ later.operator.funded ∧
      ∀ position < holding.operator.funded,
        later.entries position = holding.entries position := by
    induction changes with
    | refl => exact ⟨counters, Nat.le_refl _, fun _ _ => rfl⟩
    | tail _ change induction =>
        obtain ⟨tieredNext, funded, same⟩ := induction
        refine ⟨change.tiered tieredNext, funded.trans change.funded_le, ?_⟩
        intro position below
        rw [change.entries_below_funded tieredNext position
          (below.trans_le funded), same position below]
  exact kept.2

theorem keepsFunded_of_run {registry after : OperatorsRegistry}
    (tiered : registry.Tiered)
    (run : Relation.ReflTransGen Step registry after) :
    KeepsFunded registry after := by
  have kept : after.Tiered ∧ KeepsFunded registry after := by
    induction run with
    | refl =>
        exact ⟨tiered, fun _ holding held =>
          ⟨holding, held, Nat.le_refl _, fun _ _ => rfl⟩⟩
    | tail _ step induction =>
        obtain ⟨action, block, validators, returned⟩ := step
        obtain ⟨tieredMiddle, kept⟩ := induction
        have evolves := Action.apply_evolves tieredMiddle returned
        exact ⟨tieredMiddle.of_evolves evolves,
          kept.trans (evolves.keepsFunded tieredMiddle)⟩
  exact kept.2

def fundedCount (registry : OperatorsRegistry) (index : Nat) : Nat :=
  (registry.operators[index]?.map Operator.funded).getD 0

/-- The operators and indexes a pick returns, in the order it does. -/
def pickedPositions (registry : OperatorsRegistry)
    (allocations : List OperatorAllocation) : List (Nat × Nat) :=
  allocations.flatMap fun allocation =>
    (List.range' (registry.fundedCount allocation.operatorIndex)
      allocation.validatorCount).map fun idx =>
        (allocation.operatorIndex, idx)

def Transaction.positions (transaction : Transaction) : List (Nat × Nat) :=
  match transaction.action with
  | .pickNextValidatorsToDeposit allocations =>
    transaction.before.pickedPositions allocations
  | _ => []

/-- The pair stored at a position. -/
def pairAt (registry : OperatorsRegistry) (position : Nat × Nat) :
    Bytes × Bytes :=
  pair (registry.validatorKeys position.1 position.2)

section Positions

variable {registry after : OperatorsRegistry}
  {allocations : List OperatorAllocation}

theorem flatten_picked {perOperator : List (List (Bytes × Bytes))}
    (picked : List.Forall₂ (Picked registry) allocations perOperator) :
    perOperator.flatten =
      (registry.pickedPositions allocations).map registry.pairAt := by
  induction picked with
  | nil => rfl
  | @cons allocation keys rest _ first _ induction =>
      obtain ⟨operator, found, -, same⟩ := first
      have count : registry.fundedCount allocation.operatorIndex =
          operator.funded := by
        rw [fundedCount, found]
        rfl
      have positions : registry.pickedPositions (allocation :: rest) =
          ((List.range' operator.funded allocation.validatorCount).map
            fun idx => (allocation.operatorIndex, idx)) ++
          registry.pickedPositions rest := by
        rw [pickedPositions, List.flatMap_cons, count]
        rfl
      rw [List.flatten_cons, induction, positions, List.map_append,
        List.map_map, same]
      rfl

theorem mem_pickedPositions {position : Nat × Nat} :
    position ∈ registry.pickedPositions allocations ↔
      ∃ allocation ∈ allocations,
        allocation.operatorIndex = position.1 ∧
          registry.fundedCount position.1 ≤ position.2 ∧
          position.2 < registry.fundedCount position.1 +
            allocation.validatorCount := by
  obtain ⟨index, idx⟩ := position
  simp only [pickedPositions, List.mem_flatMap, List.mem_map,
    List.mem_range'_1, Prod.mk.injEq]
  constructor
  · rintro ⟨allocation, member, place, ⟨low, high⟩, rfl, rfl⟩
    exact ⟨allocation, member, rfl, low, high⟩
  · rintro ⟨allocation, member, rfl, low, high⟩
    exact ⟨allocation, member, idx, ⟨low, high⟩, rfl, rfl⟩

theorem nodup_pickedPositions (increasing : Increasing allocations) :
    (registry.pickedPositions allocations).Nodup := by
  rw [pickedPositions, List.nodup_flatMap]
  constructor
  · intro allocation _
    apply List.Nodup.map
    · intro left right same
      exact congrArg Prod.snd same
    · exact List.nodup_range'
  · refine (List.pairwise_map.mp increasing).imp ?_
    intro earlier later less position left right
    obtain ⟨_, -, rfl⟩ := List.mem_map.mp left
    obtain ⟨_, -, same⟩ := List.mem_map.mp right
    exact Nat.ne_of_gt less (congrArg Prod.fst same)

/-- The positions a pick returns lie between the old and the new counts. -/
theorem Pick.position_lt {validators : List (Bytes × Bytes)}
    {position : Nat × Nat}
    (pick : Pick registry after allocations validators)
    (member : position ∈ registry.pickedPositions allocations) :
    registry.fundedCount position.1 ≤ position.2 ∧
      position.2 < after.fundedCount position.1 := by
  obtain ⟨allocation, listed, index, low, high⟩ :=
    mem_pickedPositions.mp member
  refine ⟨low, ?_⟩
  obtain ⟨perOperator, picked, -⟩ := pick.picked
  obtain ⟨keys, -, operator, found, -, -⟩ :=
    exists_related_of_mem picked listed
  have count := allocatedTo_of_mem pick.increasing listed
  rw [index] at found count
  rw [fundedCount, pick.funded _ operator found, count]
  rw [fundedCount, found] at high
  exact high

theorem Pick.position_stored {validators : List (Bytes × Bytes)}
    {position : Nat × Nat} (tiered : registry.Tiered)
    (pick : Pick registry after allocations validators)
    (member : position ∈ registry.pickedPositions allocations) :
    ∃ holding, registry.holding position.1 = some holding ∧
      position.2 < holding.operator.keys ∧
      holding.entries = registry.validatorKeys position.1 := by
  obtain ⟨allocation, listed, index, -, high⟩ :=
    mem_pickedPositions.mp member
  obtain ⟨perOperator, picked, -⟩ := pick.picked
  obtain ⟨keys, -, operator, found, room, -⟩ :=
    exists_related_of_mem picked listed
  rw [index] at found
  refine ⟨_, by rw [holding, found]; rfl, ?_, rfl⟩
  rw [fundedCount, found] at high
  have limit := (tiered.of_found found).limit_le
  dsimp only [Option.map_some, Option.getD_some] at high limit ⊢
  omega

end Positions

theorem History.tiered {admin : Address} {history : List Transaction}
    {registry : OperatorsRegistry} (run : History admin history registry) :
    registry.Tiered :=
  run.reachable.tiered

theorem KeepsFunded.fundedCount_le {registry after : OperatorsRegistry}
    (kept : KeepsFunded registry after) (index : Nat) :
    registry.fundedCount index ≤ after.fundedCount index := by
  cases found : registry.operators[index]? with
  | none =>
      rw [fundedCount, found]
      exact Nat.zero_le _
  | some operator =>
      obtain ⟨later, held, funded, -⟩ := kept index _
        (by rw [holding, found]; rfl)
      rw [holding, Option.map_eq_some_iff] at held
      obtain ⟨present, foundLater, rfl⟩ := held
      rw [fundedCount, fundedCount, found, foundLater]
      exact funded

/-- Positions returned so far are below the funded counts and not repeated. -/
theorem History.positions {admin : Address} {history : List Transaction}
    {registry : OperatorsRegistry} (run : History admin history registry) :
    (history.flatMap Transaction.positions).Nodup ∧
      ∀ position ∈ history.flatMap Transaction.positions,
        position.2 < registry.fundedCount position.1 := by
  induction run with
  | start => exact ⟨List.nodup_nil, fun _ member => nomatch member⟩
  | @next history registry after action blockNumber validators run returned
      induction =>
      obtain ⟨distinct, below⟩ := induction
      have evolves := Action.apply_evolves run.tiered returned
      have kept := evolves.keepsFunded run.tiered
      have fresh : ∀ position ∈ Transaction.positions
            { blockNumber := blockNumber, action := action,
              before := registry, after := after, validators := validators },
          registry.fundedCount position.1 ≤ position.2 ∧
            position.2 < after.fundedCount position.1 := by
        intro position member
        cases action with
        | pickNextValidatorsToDeposit allocations =>
            exact (pickNextValidatorsToDeposit_pick run.tiered
              returned).position_lt member
        | _ => cases member
      have single : (Transaction.positions
          { blockNumber := blockNumber, action := action, before := registry,
            after := after, validators := validators }).Nodup := by
        cases action with
        | pickNextValidatorsToDeposit allocations =>
            exact nodup_pickedPositions (pickNextValidatorsToDeposit_pick
              run.tiered returned).increasing
        | _ => exact List.nodup_nil
      rw [List.flatMap_append, List.flatMap_singleton]
      refine ⟨List.nodup_append.mpr ⟨distinct, single, ?_⟩, ?_⟩
      · intro position earlier other later same
        subst same
        have old := below position earlier
        have new := (fresh position later).1
        omega
      · intro position member
        cases List.mem_append.mp member with
        | inl earlier =>
            exact (below position earlier).trans_le
              (kept.fundedCount_le position.1)
        | inr later => exact (fresh position later).2

/-- The entry was laid out for the operator in an `addValidators` call. -/
def LaidOut (history : List Transaction) (index : Nat) (entry : Bytes) :
    Prop :=
  ∃ added ∈ history, ∃ sender keyCount bytes position,
    added.action = .manage sender (.addValidators index keyCount bytes) ∧
      bytes.length = keyCount * entryLength ∧ position < keyCount ∧
      entry = entryAt bytes position

theorem LaidOut.later {history later : List Transaction} {index : Nat}
    {entry : Bytes} (laid : LaidOut history index entry) :
    LaidOut (history ++ later) index entry := by
  obtain ⟨added, member, call⟩ := laid
  exact ⟨added, List.mem_append_left _ member, call⟩

theorem History.laidOut {admin : Address} {history : List Transaction}
    {registry : OperatorsRegistry} (run : History admin history registry) :
    ∀ index holding, registry.holding index = some holding →
      ∀ position < holding.operator.keys,
        LaidOut history index (holding.entries position) := by
  induction run with
  | start => simp [holding, fresh]
  | @next history registry after action blockNumber validators run returned
      induction =>
      intro index later held
      have evolves := Action.apply_evolves run.tiered returned
      by_cases inside : index < registry.operators.length
      · obtain ⟨reached, heldReached, changes⟩ := evolves.changed index _
          (by rw [holding, List.getElem?_eq_getElem inside]; rfl)
        obtain rfl : reached = later :=
          Option.some.inj (heldReached.symm.trans held)
        have before := induction index _
          (by rw [holding, List.getElem?_eq_getElem inside]; rfl)
        clear heldReached held
        induction changes with
        | refl =>
            intro position present
            exact (before position present).later
        | tail _ change induction =>
            apply change.entries_from induction
            intro sender keyCount bytes position same length within
            exact ⟨_, List.mem_append_right _ List.mem_cons_self, sender,
              keyCount, bytes, position, same, length, within, rfl⟩
      · obtain ⟨newcomer, -⟩ := evolves.added_holding run.tiered
          (Nat.le_of_not_lt inside) held
        intro position present
        rw [newcomer.keys] at present
        exact absurd present (Nat.not_lt_zero _)

/-- A transaction of a history with what was before and after it. -/
theorem History.at_transaction {admin : Address}
    {history earlier later : List Transaction} {transaction : Transaction}
    {registry : OperatorsRegistry} (run : History admin history registry)
    (same : history = earlier ++ transaction :: later) :
    History admin earlier transaction.before ∧
      transaction.action.apply transaction.before transaction.blockNumber =
        .ok (transaction.after, transaction.validators) := by
  induction run generalizing later with
  | start => simp at same
  | @next history registry after action blockNumber validators run returned
      induction =>
      rcases List.eq_nil_or_concat' later with rfl | ⟨initial, last, rfl⟩
      · obtain ⟨rfl, rfl⟩ := List.append_singleton_inj.mp same
        exact ⟨run, returned⟩
      · rw [← List.cons_append, ← List.append_assoc] at same
        exact induction (List.append_singleton_inj.mp same).1

theorem Action.validators_eq {registry after : OperatorsRegistry}
    {action : Action} {blockNumber : Nat} {validators : List (Bytes × Bytes)}
    (tiered : registry.Tiered)
    (returned : action.apply registry blockNumber =
      .ok (after, validators)) :
    validators = (Transaction.positions
      { blockNumber := blockNumber, action := action, before := registry,
        after := after, validators := validators }).map registry.pairAt := by
  cases action with
  | pickNextValidatorsToDeposit allocations =>
      obtain ⟨perOperator, picked, same⟩ :=
        (pickNextValidatorsToDeposit_pick tiered returned).picked
      rw [same]
      exact flatten_picked picked
  | _ =>
      simp only [Action.apply, bind_eq_ok, pure_eq_ok, Prod.mk.injEq]
        at returned
      obtain ⟨_, -, -, none⟩ := returned
      exact none.symm

theorem pair_entryAt {bytes : Bytes} {keyCount position : Nat}
    (length : bytes.length = keyCount * entryLength)
    (within : position < keyCount) :
    pair (entryAt bytes position) =
        ((bytes.drop (entryLength * position)).take publicKeyLength,
          (bytes.drop (entryLength * position + publicKeyLength)).take
            signatureLength) ∧
      (pair (entryAt bytes position)).1.length = publicKeyLength ∧
      (pair (entryAt bytes position)).2.length = signatureLength := by
  have room := entryAt_inside length within
  simp only [pair, entryAt, entryLength, publicKeyLength, signatureLength]
    at room ⊢
  refine ⟨?_, ?_, ?_⟩
  · rw [List.take_take, List.drop_take, List.take_take, List.drop_drop]
    rfl
  · simp only [List.length_take, List.length_drop]
    omega
  · simp only [List.length_take, List.length_drop]
    omega

/-- Entries below the funded count never change, a pick returns the entries
above it and funds them, no position is returned twice, and each returned pair
was laid out in an earlier `addValidators` of its operator. -/
theorem keys_funded_once {admin : Address} {history : List Transaction}
    {registry : OperatorsRegistry} (run : History admin history registry) :
    (∀ after, Relation.ReflTransGen Step registry after →
      ∀ (index : Nat) (operator : Operator),
        registry.operators[index]? = some operator →
        ∀ idx < operator.funded, after.validatorKeys index idx =
          registry.validatorKeys index idx) ∧
    (∀ (allocations : List OperatorAllocation) (after : OperatorsRegistry)
      (validators : List (Bytes × Bytes)),
      registry.pickNextValidatorsToDeposit allocations =
        .ok (after, validators) →
      Increasing allocations ∧
      validators =
        (registry.pickedPositions allocations).map registry.pairAt ∧
      after.validatorKeys = registry.validatorKeys ∧
      (∀ (index : Nat) (operator : Operator),
        registry.operators[index]? = some operator →
        after.operators[index]? = some { operator with
          funded := operator.funded + allocatedTo allocations index }) ∧
      ∀ allocation ∈ allocations,
        allocatedTo allocations allocation.operatorIndex =
          allocation.validatorCount) ∧
    (history.flatMap Transaction.positions).Nodup ∧
    ∀ (earlier later : List Transaction) (transaction : Transaction),
      history = earlier ++ transaction :: later →
      transaction.validators =
        transaction.positions.map transaction.before.pairAt ∧
      ∀ position ∈ transaction.positions,
        ∃ added ∈ earlier, ∃ sender keyCount bytes place,
          added.action =
            .manage sender (.addValidators position.1 keyCount bytes) ∧
          bytes.length = keyCount * entryLength ∧ place < keyCount ∧
          transaction.before.pairAt position =
            ((bytes.drop (entryLength * place)).take publicKeyLength,
              (bytes.drop (entryLength * place + publicKeyLength)).take
                signatureLength) ∧
          (transaction.before.pairAt position).1.length = publicKeyLength ∧
          (transaction.before.pairAt position).2.length =
            signatureLength := by
  refine ⟨?_, ?_, run.positions.1, ?_⟩
  · intro after steps index operator found idx funded
    obtain ⟨later, held, -, kept⟩ := keepsFunded_of_run run.tiered steps
      index _ (by rw [holding, found]; rfl)
    rw [holding, Option.map_eq_some_iff] at held
    obtain ⟨present, -, rfl⟩ := held
    exact kept idx funded
  · intro allocations after validators returned
    have pick := pickNextValidatorsToDeposit_pick run.tiered returned
    obtain ⟨perOperator, picked, same⟩ := pick.picked
    exact ⟨pick.increasing, same.trans (flatten_picked picked), pick.entries,
      pick.funded, fun allocation member =>
        allocatedTo_of_mem pick.increasing member⟩
  · intro earlier later transaction same
    obtain ⟨before, returned⟩ := run.at_transaction same
    refine ⟨Action.validators_eq before.tiered returned, ?_⟩
    intro position member
    obtain ⟨blockNumber, action, registry, after, validators⟩ := transaction
    cases action with
    | pickNextValidatorsToDeposit allocations =>
        have pick := pickNextValidatorsToDeposit_pick before.tiered returned
        obtain ⟨holding, held, stored, entries⟩ :=
          pick.position_stored before.tiered member
        obtain ⟨added, listed, sender, keyCount, bytes, place, call, length,
          within, entry⟩ := before.laidOut position.1 holding held position.2
            stored
        obtain ⟨parts, key, signature⟩ := pair_entryAt length within
        refine ⟨added, listed, sender, keyCount, bytes, place, call, length,
          within, ?_⟩
        have same : registry.pairAt position =
            pair (entryAt bytes place) := by
          rw [pairAt, ← entries, entry]
        rw [same]
        exact ⟨parts, key, signature⟩
    | _ => cases member

theorem keys_funded_once_sample :
    ∃ history registry, sampleHistory = .ok (history, registry) ∧
      history.flatMap Transaction.positions = [(0, 0)] ∧
      ∀ after, Relation.ReflTransGen Step registry after →
        after.pairAt (0, 0) =
          (sampleEntries.take 48, (sampleEntries.drop 48).take 96) := by
  have checked : returns sampleHistory (fun result =>
      result.1.flatMap Transaction.positions = [(0, 0)] ∧
        result.2.operators.map Operator.funded = [1] ∧
        result.2.pairAt (0, 0) =
          (sampleEntries.take 48, (sampleEntries.drop 48).take 96)) =
      true := by
    decide +kernel
  obtain ⟨⟨history, registry⟩, returned, facts⟩ := returns_iff.mp checked
  obtain ⟨positions, funded, stored⟩ := of_decide_eq_true facts
  have run : History .zero history registry := History.start.replay returned
  obtain ⟨kept, -⟩ := keys_funded_once run
  refine ⟨history, registry, returned, positions, ?_⟩
  intro after later
  obtain ⟨operator, rest, operators, one, -⟩ :=
    List.map_eq_cons_iff.mp funded
  have found : registry.operators[0]? = some operator := by
    dsimp only at operators
    rw [operators]
    rfl
  rw [← stored, pairAt, pairAt,
    kept after later 0 operator found 0 (one ▸ Nat.one_pos)]

end OperatorsRegistry

end RiverProtocol
