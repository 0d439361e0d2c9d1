import RiverProtocol.OperatorsRegistry.Removal

/-!
# The rebroadcasting of the funded keys

The keys that were funded before the event moved to the registry are emitted
again, as many as a call asks for, from the cursors the last call stored.  A
call emits the next pending keys and leaves the rest pending, so how the
amounts are split does not matter.
-/

namespace RiverProtocol

open Checked Outcome

namespace OperatorsRegistry

open ValidatorKeys (entryLength pair)

/-- The reverts of the rebroadcasting. -/
inductive RebroadcastError where
  | fundedKeyEventMigrationComplete
  | registry (failure : Error)
  deriving DecidableEq, Repr

instance : HasPanic RebroadcastError :=
  ⟨fun reason => .registry (.panic reason)⟩

/-- The registry and the two cursors in its storage.  An operator index of
`type(uint256).max` is `none`. -/
structure Rebroadcast where
  registry : OperatorsRegistry
  operatorIndex : Option Nat
  keyIndex : Nat

namespace Rebroadcast

/-- The cursors after keys up to `reached` of an operator are emitted. -/
def advance (registry : OperatorsRegistry) (operator : Operator)
    (operatorIndex reached : Nat) : Except RebroadcastError Rebroadcast :=
  if reached = operator.funded then do
    let lastIndex ← usub registry.operators.length 1
    return { registry
             operatorIndex :=
               if operatorIndex = lastIndex then none
               else some (operatorIndex + 1)
             keyIndex := 0 }
  else
    return { registry
             operatorIndex := some operatorIndex
             keyIndex := reached }

/-- One iteration of the loop, with the amount that is left to emit. -/
def emitNext (state : Rebroadcast) (operatorIndex amountToEmit : Nat) :
    Except RebroadcastError (Rebroadcast × Nat) := do
  let registry := state.registry
  let operator ← (registry.getOperator operatorIndex).mapError .registry
  let unemitted ← usub operator.funded state.keyIndex
  let keys ← (ValidatorKeys.getKeys (registry.validatorKeys operatorIndex)
    state.keyIndex (LibUint256.min amountToEmit unemitted)).mapError .registry
  let publicKeys := keys.map Prod.fst
  let registry : OperatorsRegistry := { registry with
    logs := registry.logs ++
      [.fundedValidatorKeys operatorIndex publicKeys true] }
  let reached ← uadd state.keyIndex publicKeys.length
  let advanced ← advance registry operator operatorIndex reached
  let amountToEmit ← usub amountToEmit publicKeys.length
  return (advanced, amountToEmit)

/-- The loop, with fuel: it has no result where the fuel runs out. -/
def emitWhile : (fuel amountToEmit : Nat) → Rebroadcast →
    Option (Except RebroadcastError Rebroadcast)
  | 0, _, _ => none
  | fuel + 1, amountToEmit, state =>
    match state.operatorIndex with
    | none => some (.ok state)
    | some operatorIndex =>
      if amountToEmit > 0 then
        match state.emitNext operatorIndex amountToEmit with
        | .error failure => some (.error failure)
        | .ok (advanced, amountToEmit) =>
          emitWhile fuel amountToEmit advanced
      else
        some (.ok state)

def forceFundedValidatorKeysEventEmission (fuel : Nat) (state : Rebroadcast)
    (amountToEmit : Nat) : Option (Except RebroadcastError Rebroadcast) :=
  match state.operatorIndex with
  | none => some (.error .fundedKeyEventMigrationComplete)
  | some _ =>
    if state.registry.operators.length = 0 then
      some (.ok { state with operatorIndex := none })
    else
      emitWhile fuel amountToEmit state

/-- Before the first call the cursors are zero. -/
def start (registry : OperatorsRegistry) : Rebroadcast :=
  { registry
    operatorIndex := some 0
    keyIndex := 0 }

/-- A call and the storage after it: a revert leaves it as it was. -/
def afterCall (fuel : Nat) (state : Rebroadcast) (amountToEmit : Nat) :
    Option Rebroadcast :=
  (state.forceFundedValidatorKeysEventEmission fuel amountToEmit).map
    fun result =>
      match result with
      | .ok after => after
      | .error _ => state

end Rebroadcast

/-- The operator index and the public keys of a rebroadcast event. -/
def rebroadcastKeys : RegistryLog → List (Nat × Bytes)
  | .fundedValidatorKeys index publicKeys true =>
      publicKeys.map fun publicKey => (index, publicKey)
  | _ => []

/-- The public key stored at a position, with the index of its operator. -/
def keyAt (registry : OperatorsRegistry) (index idx : Nat) : Nat × Bytes :=
  (index, (registry.pairAt (index, idx)).1)

/-- The funded keys of an operator in the order of their indexes. -/
def fundedKeys (registry : OperatorsRegistry) (index : Nat) :
    List (Nat × Bytes) :=
  match registry.operators[index]? with
  | none => []
  | some operator => (List.range operator.funded).map (registry.keyAt index)

/-- The funded keys of the operators from an index on, in their order. -/
def fundedKeysFrom (registry : OperatorsRegistry) (index : Nat) :
    List (Nat × Bytes) :=
  (List.range' index (registry.operators.length - index)).flatMap
    registry.fundedKeys

/-- The funded keys of all operators, each listed once. -/
def allFundedKeys (registry : OperatorsRegistry) : List (Nat × Bytes) :=
  (List.range registry.operators.length).flatMap registry.fundedKeys

/-- Every funded key is stored with its signature. -/
structure Stored (registry : OperatorsRegistry) : Prop where
  fits : ∀ (index : Nat) (operator : Operator),
    registry.operators[index]? = some operator →
    operator.funded < uint32Limit
  entries : ∀ (index : Nat) (operator : Operator),
    registry.operators[index]? = some operator →
    ∀ idx < operator.funded,
      entryLength ≤ (registry.validatorKeys index idx).length

variable {registry : OperatorsRegistry} {index amount fuel : Nat}
  {operator : Operator}

theorem Reachable.stored (reachable : registry.Reachable) :
    registry.Stored := by
  constructor
  · intro index operator found
    obtain ⟨keys_lt, limit_le, funded_le, -, -⟩ :=
      reachable.tiered.of_found found
    exact (funded_le.trans limit_le).trans_lt keys_lt
  · intro index operator found idx inside
    obtain ⟨-, limit_le, funded_le, -, -⟩ := reachable.tiered.of_found found
    have stored : idx < operator.keys :=
      inside.trans_le (funded_le.trans limit_le)
    exact (reachable.entry_length found idx stored).ge

theorem fundedKeys_of (found : registry.operators[index]? = some operator) :
    registry.fundedKeys index =
      (List.range operator.funded).map (registry.keyAt index) := by
  rw [fundedKeys, found]

theorem fundedKeysFrom_cons (inside : index < registry.operators.length) :
    registry.fundedKeysFrom index =
      registry.fundedKeys index ++ registry.fundedKeysFrom (index + 1) := by
  have first : registry.operators.length - index =
      (registry.operators.length - (index + 1)) + 1 := by omega
  rw [fundedKeysFrom, first, List.range'_succ, List.flatMap_cons]
  rfl

theorem fundedKeysFrom_end (outside : registry.operators.length ≤ index) :
    registry.fundedKeysFrom index = [] := by
  rw [fundedKeysFrom, Nat.sub_eq_zero_of_le outside]
  rfl

theorem fundedKeysFrom_zero :
    registry.fundedKeysFrom 0 = registry.allFundedKeys := by
  rw [fundedKeysFrom, allFundedKeys, List.range_eq_range', Nat.sub_zero]

/-- Stored keys are read in order. -/
theorem Stored.getKeys_eq (stored : registry.Stored)
    (found : registry.operators[index]? = some operator) {startIdx : Nat}
    (inside : startIdx + amount ≤ operator.funded) :
    ValidatorKeys.getKeys (registry.validatorKeys index) startIdx amount =
      .ok ((List.range' startIdx amount).map fun idx =>
        pair (registry.validatorKeys index idx)) := by
  induction amount generalizing startIdx with
  | zero => rfl
  | succ amount induction =>
      have long := stored.entries index operator found startIdx (by omega)
      have first : ValidatorKeys.split
          (registry.validatorKeys index startIdx) =
          .ok (pair (registry.validatorKeys index startIdx)) :=
        split_eq_ok.mpr ⟨long, rfl, rfl⟩
      rw [ValidatorKeys.getKeys, first, ok_bind, induction (by omega),
        List.range'_succ]
      rfl

namespace Rebroadcast

variable {state before middle after : Rebroadcast}
  {emitted further : List RegistryLog} {more : Nat}

/-- The keys that are still to be emitted. -/
def pending (state : Rebroadcast) : List (Nat × Bytes) :=
  match state.operatorIndex with
  | none => []
  | some index =>
      (state.registry.fundedKeysFrom index).drop state.keyIndex

/-- The cursors are at a funded key of an operator, or at its end. -/
structure Ready (state : Rebroadcast) : Prop where
  stored : state.registry.Stored
  inside : ∀ index, state.operatorIndex = some index →
    ∃ operator, state.registry.operators[index]? = some operator ∧
      state.keyIndex ≤ operator.funded

/-- The next pending keys are emitted, at most `amount` of them, and nothing
else changes but the cursors. -/
structure Emits (before after : Rebroadcast) (emitted : List RegistryLog)
    (amount : Nat) : Prop where
  registry : after.registry =
    { before.registry with logs := before.registry.logs ++ emitted }
  deferred : ∀ log ∈ emitted, ∃ index publicKeys,
    log = .fundedValidatorKeys index publicKeys true
  keys : emitted.flatMap rebroadcastKeys = before.pending.take amount
  pending : after.pending = before.pending.drop amount
  kept : before.operatorIndex = none → after.operatorIndex = none
  done : before.pending.length < amount → after.operatorIndex = none

theorem pending_of (current : state.operatorIndex = some index) :
    state.pending =
      (state.registry.fundedKeysFrom index).drop state.keyIndex := by
  rw [pending, current]

theorem pending_none (complete : state.operatorIndex = none) :
    state.pending = [] := by
  rw [pending, complete]

theorem Emits.nothing : Emits state state [] 0 :=
  { registry := by rw [List.append_nil]
    deferred := by simp
    keys := rfl
    pending := rfl
    kept := id
    done := by simp }

theorem Emits.complete (complete : state.operatorIndex = none) :
    Emits state state [] amount :=
  { registry := by rw [List.append_nil]
    deferred := by simp
    keys := by rw [pending_none complete, List.take_nil]; rfl
    pending := by rw [pending_none complete, List.drop_nil]
    kept := id
    done := fun _ => complete }

/-- Emitting in two turns is emitting at once. -/
theorem Emits.trans (first : Emits before middle emitted amount)
    (second : Emits middle after further more) :
    Emits before after (emitted ++ further) (amount + more) := by
  refine
    { registry := ?_
      deferred := ?_
      keys := ?_
      pending := ?_
      kept := fun complete => second.kept (first.kept complete)
      done := ?_ }
  · rw [second.registry, first.registry, List.append_assoc]
  · intro log member
    cases List.mem_append.mp member with
    | inl early => exact first.deferred log early
    | inr late => exact second.deferred log late
  · rw [List.flatMap_append, first.keys, second.keys, first.pending,
      List.take_add]
  · rw [second.pending, first.pending, List.drop_drop]
  · intro few
    by_cases finished : before.pending.length < amount
    · exact second.kept (first.done finished)
    · apply second.done
      rw [first.pending, List.length_drop]
      omega

variable {taken : Nat}

/-- What is pending: the next keys of the operator, its other keys and those
of the operators after it. -/
theorem pending_split (current : state.operatorIndex = some index)
    (found : state.registry.operators[index]? = some operator)
    (within : state.keyIndex + taken ≤ operator.funded) :
    state.pending =
      (List.range' state.keyIndex taken).map (state.registry.keyAt index) ++
        ((List.range' (state.keyIndex + taken)
            (operator.funded - (state.keyIndex + taken))).map
              (state.registry.keyAt index) ++
          state.registry.fundedKeysFrom (index + 1)) := by
  have inside := (List.getElem?_eq_some_iff.mp found).1
  have counted : operator.funded = state.keyIndex +
      (taken + (operator.funded - (state.keyIndex + taken))) := by omega
  have parts : List.range operator.funded =
      List.range' 0 state.keyIndex ++
        (List.range' state.keyIndex taken ++
          List.range' (state.keyIndex + taken)
            (operator.funded - (state.keyIndex + taken))) := by
    rw [List.range'_append_1]
    have whole := List.range'_append_1 (s := 0) (m := state.keyIndex)
      (n := taken + (operator.funded - (state.keyIndex + taken)))
    rw [Nat.zero_add] at whole
    rw [whole, ← counted, List.range_eq_range']
  rw [pending_of current, fundedKeysFrom_cons inside, fundedKeys_of found,
    parts, List.map_append, List.map_append, List.append_assoc,
    List.append_assoc]
  exact List.drop_left' (by simp)

/-- The operators the loop may still visit. -/
def unvisited (state : Rebroadcast) : Nat :=
  match state.operatorIndex with
  | none => 0
  | some index => state.registry.operators.length - index

/-- Where the cursors go: nothing is lost, and the loop visits one operator
less unless it stays at the one it is at. -/
theorem Ready.advance (ready : state.Ready)
    (current : state.operatorIndex = some index)
    (found : state.registry.operators[index]? = some operator)
    (within : state.keyIndex + taken ≤ operator.funded)
    (logs : List RegistryLog) :
    ∃ after, Rebroadcast.advance { state.registry with logs } operator index
        (state.keyIndex + taken) = .ok after ∧
      after.registry = { state.registry with logs } ∧ after.Ready ∧
      after.pending = state.pending.drop taken ∧
      (state.keyIndex + taken = operator.funded →
        after.unvisited < state.unvisited) := by
  have inside := (List.getElem?_eq_some_iff.mp found).1
  have unvisited : state.unvisited =
      state.registry.operators.length - index := by
    rw [Rebroadcast.unvisited, current]
  by_cases whole : state.keyIndex + taken = operator.funded
  · have rest : state.pending.drop taken =
        state.registry.fundedKeysFrom (index + 1) := by
      rw [pending_split current found within, whole, Nat.sub_self]
      exact List.drop_left' (by simp)
    have counted : 1 ≤ state.registry.operators.length := by omega
    rw [Rebroadcast.advance, if_pos whole, usub_of_le counted, ok_bind]
    by_cases last : index = state.registry.operators.length - 1
    · rw [if_pos last]
      refine ⟨_, rfl, rfl, ⟨⟨ready.stored.fits, ready.stored.entries⟩, nofun⟩,
        ?_, fun _ => ?_⟩
      · rw [rest, fundedKeysFrom_end (by omega)]
        rfl
      · rw [unvisited]
        exact Nat.sub_pos_of_lt inside
    · rw [if_neg last]
      have later : index + 1 < state.registry.operators.length := by omega
      refine ⟨_, rfl, rfl, ⟨⟨ready.stored.fits, ready.stored.entries⟩, ?_⟩,
        ?_, fun _ => ?_⟩
      · intro other same
        cases same
        exact ⟨_, List.getElem?_eq_getElem later, Nat.zero_le _⟩
      · rw [rest]
        rfl
      · rw [unvisited]
        exact Nat.sub_lt_sub_left inside (Nat.lt_succ_self index)
  · rw [Rebroadcast.advance, if_neg whole]
    refine ⟨_, rfl, rfl, ?_, ?_, fun reached => absurd reached whole⟩
    · refine ⟨⟨ready.stored.fits, ready.stored.entries⟩, ?_⟩
      intro other same
      cases same
      exact ⟨operator, found, within⟩
    · rw [pending_of current, List.drop_drop]
      rfl

/-- The event of an iteration that emits `taken` keys. -/
def nextLog (state : Rebroadcast) (index taken : Nat) : RegistryLog :=
  .fundedValidatorKeys index
    ((List.range' state.keyIndex taken).map fun idx =>
      (state.registry.pairAt (index, idx)).1) true

theorem rebroadcastKeys_nextLog (current : state.operatorIndex = some index)
    (found : state.registry.operators[index]? = some operator)
    (within : state.keyIndex + taken ≤ operator.funded) :
    rebroadcastKeys (state.nextLog index taken) =
      state.pending.take taken := by
  have next : (List.range' state.keyIndex taken).map
      (state.registry.keyAt index) =
        rebroadcastKeys (state.nextLog index taken) := by
    rw [nextLog, rebroadcastKeys, List.map_map]
    rfl
  rw [pending_split current found within, ← next]
  exact (List.take_left' (by simp)).symm

theorem le_length_pending (current : state.operatorIndex = some index)
    (found : state.registry.operators[index]? = some operator)
    (within : state.keyIndex + taken ≤ operator.funded) :
    taken ≤ state.pending.length := by
  rw [pending_split current found within, List.length_append,
    List.length_map, List.length_range']
  exact Nat.le_add_right _ _

/-- What an iteration computes: it cannot fail where the keys are stored. -/
theorem emitNext_eq (stored : state.registry.Stored)
    (found : state.registry.operators[index]? = some operator)
    (reached : state.keyIndex ≤ operator.funded)
    (counted : taken = min amount (operator.funded - state.keyIndex))
    (advanced : Rebroadcast.advance
      { state.registry with
        logs := state.registry.logs ++ [state.nextLog index taken] }
      operator index (state.keyIndex + taken) = .ok after) :
    state.emitNext index amount = .ok (after, amount - taken) := by
  have fetched : state.registry.getOperator index = .ok operator :=
    fetch_eq_ok.mpr found
  have within : state.keyIndex + taken ≤ operator.funded := by omega
  have bounded : taken ≤ amount := by omega
  have small := stored.fits index operator found
  have fits : state.keyIndex + taken < wordLimit :=
    (within.trans_lt small).trans (by decide)
  have publicKeys : ((List.range' state.keyIndex taken).map fun idx =>
      pair (state.registry.validatorKeys index idx)).map Prod.fst =
        (List.range' state.keyIndex taken).map fun idx =>
          (state.registry.pairAt (index, idx)).1 := by
    rw [List.map_map]
    rfl
  unfold emitNext
  simp only [fetched, Except.mapError, ok_bind, usub_of_le reached,
    LibUint256.min_eq, ← counted]
  rw [stored.getKeys_eq found within]
  simp only [ok_bind, publicKeys, List.length_map, List.length_range']
  rw [nextLog] at advanced
  rw [uadd_of_lt fits, ok_bind, advanced, ok_bind, usub_of_le bounded]
  rfl

/-- An iteration emits pending keys, all that were asked for or all the
operator has left. -/
theorem Ready.emitNext (ready : state.Ready)
    (current : state.operatorIndex = some index) (amount : Nat) :
    ∃ after emitted taken,
      state.emitNext index amount = .ok (after, amount - taken) ∧
        taken ≤ amount ∧ Emits state after emitted taken ∧ after.Ready ∧
        (taken = amount ∨ after.unvisited < state.unvisited) := by
  obtain ⟨operator, found, reached⟩ := ready.inside index current
  obtain ⟨taken, counted⟩ : ∃ taken,
      taken = min amount (operator.funded - state.keyIndex) := ⟨_, rfl⟩
  have within : state.keyIndex + taken ≤ operator.funded := by omega
  have held := le_length_pending current found within
  obtain ⟨after, advanced, registry, afterReady, pending, fewer⟩ :=
    ready.advance current found within
      (state.registry.logs ++ [state.nextLog index taken])
  refine ⟨after, [state.nextLog index taken], taken,
    emitNext_eq ready.stored found reached counted advanced, by omega, ?_,
    afterReady, ?_⟩
  · refine
      { registry
        deferred := ?_
        keys := ?_
        pending
        kept := ?_
        done := ?_ }
    · intro log member
      exact ⟨index, _, List.mem_singleton.mp member⟩
    · rw [List.flatMap_singleton]
      exact rebroadcastKeys_nextLog current found within
    · intro complete
      rw [current] at complete
      cases complete
    · intro few
      omega
  · by_cases whole : state.keyIndex + taken = operator.funded
    · exact .inr (fewer whole)
    · left
      omega

theorem emitWhile_complete (complete : state.operatorIndex = none)
    (running : 0 < fuel) :
    emitWhile fuel amount state = some (.ok state) := by
  obtain ⟨fewer, rfl⟩ := Nat.exists_eq_succ_of_ne_zero running.ne'
  rw [emitWhile, complete]

theorem emitWhile_zero (running : 0 < fuel) :
    emitWhile fuel 0 state = some (.ok state) := by
  obtain ⟨fewer, rfl⟩ := Nat.exists_eq_succ_of_ne_zero running.ne'
  cases current : state.operatorIndex with
  | none => rw [emitWhile, current]
  | some index =>
      rw [emitWhile, current]
      rfl

theorem Ready.complete_of_unvisited (ready : state.Ready)
    (none_left : state.unvisited = 0) : state.operatorIndex = none := by
  cases current : state.operatorIndex with
  | none => rfl
  | some index =>
      obtain ⟨operator, found, -⟩ := ready.inside index current
      have inside := (List.getElem?_eq_some_iff.mp found).1
      rw [unvisited, current] at none_left
      exact absurd none_left (Nat.sub_pos_of_lt inside).ne'

theorem emitWhile_succ (current : state.operatorIndex = some index)
    (positive : 0 < amount)
    (emitting : state.emitNext index amount = .ok (middle, more)) :
    emitWhile (fuel + 1) amount state = emitWhile fuel more middle := by
  rw [emitWhile, current]
  dsimp only
  rw [if_pos positive, emitting]

/-- The loop ends after as many iterations as there are operators left, by
induction on their number. -/
theorem Ready.emitWhile {bound : Nat} (ready : state.Ready)
    (bounded : state.unvisited ≤ bound) :
    ∃ after emitted, (∀ fuel, bound < fuel →
        Rebroadcast.emitWhile fuel amount state = some (.ok after)) ∧
      Emits state after emitted amount ∧ after.Ready := by
  induction bound generalizing state amount with
  | zero =>
      have complete := ready.complete_of_unvisited (Nat.le_zero.mp bounded)
      exact ⟨state, [], fun fuel running => emitWhile_complete complete
        running, .complete complete, ready⟩
  | succ bound induction =>
      cases current : state.operatorIndex with
      | none =>
          exact ⟨state, [], fun fuel running => emitWhile_complete current
            (by omega), .complete current, ready⟩
      | some index =>
          by_cases positive : 0 < amount
          · obtain ⟨middle, emitted, taken, emitting, within, emits,
              middleReady, progress⟩ := ready.emitNext current amount
            have total : taken + (amount - taken) = amount := by omega
            cases progress with
            | inl all =>
                -- the amount is used up, so the next turn ends the loop
                have used : amount - taken = 0 := by omega
                rw [used] at emitting
                refine ⟨middle, emitted, fun fuel running => ?_, all ▸ emits,
                  middleReady⟩
                obtain ⟨rest, rfl⟩ := Nat.exists_eq_succ_of_ne_zero
                  (Nat.ne_of_gt (Nat.zero_lt_of_lt running))
                rw [emitWhile_succ current positive emitting]
                exact emitWhile_zero (by omega)
            | inr fewer =>
                obtain ⟨after, further, ends, finishing, afterReady⟩ :=
                  induction middleReady (by omega)
                refine ⟨after, emitted ++ further, fun fuel running => ?_,
                  total ▸ emits.trans finishing, afterReady⟩
                obtain ⟨rest, rfl⟩ := Nat.exists_eq_succ_of_ne_zero
                  (Nat.ne_of_gt (Nat.zero_lt_of_lt running))
                rw [emitWhile_succ current positive emitting]
                exact ends rest (by omega)
          · obtain rfl : amount = 0 := by omega
            exact ⟨state, [], fun fuel running => emitWhile_zero (by omega),
              .nothing, ready⟩

theorem unvisited_le : state.unvisited ≤ state.registry.operators.length := by
  unfold unvisited
  split
  · exact Nat.zero_le _
  · exact Nat.sub_le _ _

theorem Emits.operators (emits : Emits before after emitted amount) :
    after.registry.operators = before.registry.operators := by
  rw [emits.registry]

/-- Until all keys are emitted a call returns, for any amount. -/
theorem Ready.returns (ready : state.Ready)
    (current : state.operatorIndex = some index) (amount : Nat) :
    ∃ after emitted,
      (∀ fuel, state.registry.operators.length < fuel →
        state.forceFundedValidatorKeysEventEmission fuel amount =
          some (.ok after)) ∧
      Emits state after emitted amount ∧ after.Ready := by
  obtain ⟨operator, found, -⟩ := ready.inside index current
  have inside := (List.getElem?_eq_some_iff.mp found).1
  have nonempty : state.registry.operators.length ≠ 0 := by omega
  obtain ⟨after, emitted, ends, emits, afterReady⟩ :=
    ready.emitWhile unvisited_le
  refine ⟨after, emitted, fun fuel enough => ?_, emits, afterReady⟩
  rw [forceFundedValidatorKeysEventEmission, current]
  dsimp only
  rw [if_neg nonempty]
  exact ends fuel enough

theorem reverts_of_complete (complete : state.operatorIndex = none) :
    state.forceFundedValidatorKeysEventEmission fuel amount =
      some (.error .fundedKeyEventMigrationComplete) := by
  rw [forceFundedValidatorKeysEventEmission, complete]

/-- A call emits as many pending keys as it is asked for. -/
theorem Ready.afterCall (ready : state.Ready) (amount : Nat) :
    ∃ after emitted,
      (∀ fuel, state.registry.operators.length < fuel →
        state.afterCall fuel amount = some after) ∧
      Emits state after emitted amount ∧ after.Ready := by
  cases current : state.operatorIndex with
  | none =>
      refine ⟨state, [], fun fuel _ => ?_, .complete current, ready⟩
      rw [Rebroadcast.afterCall, reverts_of_complete current]
      rfl
  | some index =>
      obtain ⟨after, emitted, returned, emits, afterReady⟩ :=
        ready.returns current amount
      refine ⟨after, emitted, fun fuel enough => ?_, emits, afterReady⟩
      rw [Rebroadcast.afterCall, returned fuel enough]
      rfl

/-- A sequence of calls emits what one call for the sum of their amounts
does. -/
theorem Ready.afterCalls (ready : state.Ready) (chunks : List Nat) :
    ∃ after emitted,
      (∀ fuel, state.registry.operators.length < fuel →
        chunks.foldlM (Rebroadcast.afterCall fuel) state = some after) ∧
      Emits state after emitted chunks.sum ∧ after.Ready := by
  induction chunks generalizing state with
  | nil => exact ⟨state, [], fun _ _ => rfl, .nothing, ready⟩
  | cons chunk chunks induction =>
      obtain ⟨middle, emitted, called, emits, middleReady⟩ :=
        ready.afterCall chunk
      obtain ⟨after, further, calls, finishing, afterReady⟩ :=
        induction middleReady
      rw [emits.operators] at calls
      refine ⟨after, emitted ++ further, fun fuel enough => ?_, ?_,
        afterReady⟩
      · rw [List.foldlM_cons, called fuel enough]
        exact calls fuel enough
      · rw [List.sum_cons]
        exact emits.trans finishing

end Rebroadcast

open Rebroadcast

/-- However the amounts are split, the calls terminate and emit the funded
keys of the operators in order, each once: those asked for so far, and all of
them once the cursors are at the end.  From then on every call reverts, and
before it none does; more chunks than there are funded keys get there. -/
theorem rebroadcast_split_invariant (stored : registry.Stored)
    (present : registry.operators ≠ []) (chunks : List Nat) :
    ∃ after emitted,
      (∀ fuel, registry.operators.length < fuel →
        chunks.foldlM (afterCall fuel) (start registry) = some after) ∧
      after.registry =
        { registry with logs := registry.logs ++ emitted } ∧
      (∀ log ∈ emitted, ∃ index publicKeys,
        log = .fundedValidatorKeys index publicKeys true) ∧
      emitted.flatMap rebroadcastKeys =
        registry.allFundedKeys.take chunks.sum ∧
      (after.operatorIndex = none →
        emitted.flatMap rebroadcastKeys = registry.allFundedKeys ∧
        ∀ fuel amount, after.forceFundedValidatorKeysEventEmission fuel
          amount = some (.error .fundedKeyEventMigrationComplete)) ∧
      (after.operatorIndex ≠ none → ∀ amount, ∃ later,
        ∀ fuel, registry.operators.length < fuel →
          after.forceFundedValidatorKeysEventEmission fuel amount =
            some (.ok later)) ∧
      ((∀ chunk ∈ chunks, 0 < chunk) →
        registry.allFundedKeys.length < chunks.length →
        after.operatorIndex = none) := by
  have counted : 0 < registry.operators.length :=
    List.length_pos_iff.mpr present
  have ready : (start registry).Ready := by
    refine ⟨stored, ?_⟩
    intro index same
    cases same
    exact ⟨_, List.getElem?_eq_getElem counted, Nat.zero_le _⟩
  have pending : (start registry).pending = registry.allFundedKeys := by
    rw [pending_of rfl, ← fundedKeysFrom_zero]
    rfl
  obtain ⟨after, emitted, calls, emits, afterReady⟩ :=
    ready.afterCalls chunks
  have keys := emits.keys
  rw [pending] at keys
  refine ⟨after, emitted, calls, emits.registry, emits.deferred, keys, ?_, ?_,
    ?_⟩
  · intro complete
    refine ⟨?_, fun fuel amount => reverts_of_complete complete⟩
    have rest := emits.pending
    rw [pending, pending_none complete] at rest
    rw [keys]
    exact List.take_of_length_le (List.drop_eq_nil_iff.mp rest.symm)
  · intro running amount
    obtain ⟨index, current⟩ := Option.ne_none_iff_exists'.mp running
    obtain ⟨later, -, returned, -, -⟩ := afterReady.returns current amount
    rw [emits.operators] at returned
    exact ⟨later, returned⟩
  · intro positive many
    apply emits.done
    rw [pending]
    exact many.trans_le (List.length_le_sum_of_one_le chunks positive)

/-- The one funded key, then the operator added last, which has none. -/
theorem rebroadcast_split_invariant_sample :
    ∃ history registry after emitted,
      replay [] (fresh .zero) (sampleActions ++
        [(7, .manage .zero (.addOperator "unfunded" (.ofNat 2)))]) =
          .ok (history, registry) ∧
      [1, 1].foldlM (afterCall 3) (start registry) = some after ∧
      after.operatorIndex = none ∧
      after.registry.logs = registry.logs ++ emitted ∧
      emitted.flatMap rebroadcastKeys = [(0, sampleEntries.take 48)] := by
  have checked : returns (replay [] (fresh .zero) (sampleActions ++
      [(7, .manage .zero (.addOperator "unfunded" (.ofNat 2)))]))
      (fun result => result.2.operators.length = 2 ∧
        result.2.allFundedKeys = [(0, sampleEntries.take 48)]) = true := by
    decide +kernel
  obtain ⟨⟨history, registry⟩, returned, facts⟩ := returns_iff.mp checked
  obtain ⟨count, keys⟩ : registry.operators.length = 2 ∧
      registry.allFundedKeys = [(0, sampleEntries.take 48)] :=
    of_decide_eq_true facts
  have run : History .zero history registry := History.start.replay returned
  have present : registry.operators ≠ [] :=
    List.ne_nil_of_length_pos (by omega)
  obtain ⟨after, emitted, calls, registries, -, -, complete, -, finishes⟩ :=
    rebroadcast_split_invariant run.reachable.stored present [1, 1]
  have finished : after.operatorIndex = none := by
    apply finishes
    · decide
    · rw [keys]
      decide
  refine ⟨history, registry, after, emitted, returned,
    calls 3 (by omega), finished, ?_, (complete finished).1.trans keys⟩
  rw [registries]

end OperatorsRegistry

end RiverProtocol
