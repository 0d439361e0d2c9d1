import RiverProtocol.OperatorsRegistry.Keys

/-!
# Which keys a removal removes

An accepted list of positions is strictly descending between the funded count
and the number of keys.  The entries that remain are those at the positions
not listed, and the keys emitted are the ones that were stored at the listed
positions before the call.
-/

namespace RiverProtocol

open Checked Outcome

open SwapRemove (Removable)

namespace OperatorsRegistry

open ValidatorKeys (entryLength entryAt pair)

variable {registry : OperatorsRegistry}

theorem Reachable.history (reachable : registry.Reachable) :
    ∃ admin history, History admin history registry := by
  obtain ⟨admin, run⟩ := reachable
  refine ⟨admin, ?_⟩
  induction run with
  | refl => exact ⟨[], .start⟩
  | tail _ step induction =>
      obtain ⟨history, run⟩ := induction
      obtain ⟨action, block, validators, returned⟩ := step
      exact ⟨_, run.next returned⟩

theorem LaidOut.length_eq {history : List Transaction} {index : Nat}
    {entry : Bytes} (laid : LaidOut history index entry) :
    entry.length = entryLength := by
  obtain ⟨added, -, sender, keyCount, bytes, position, -, length, within,
    rfl⟩ := laid
  have room := entryAt_inside length within
  rw [entryAt, List.length_take, List.length_drop]
  omega

theorem Reachable.entry_length (reachable : registry.Reachable)
    {index : Nat} {operator : Operator}
    (found : registry.operators[index]? = some operator) :
    ∀ position < operator.keys,
      (registry.validatorKeys index position).length = entryLength := by
  intro position inside
  obtain ⟨admin, history, run⟩ := reachable.history
  have held : registry.holding index = some
      { operator := operator
        entries := registry.validatorKeys index
        stopped := registry.getStoppedValidatorsCount index } := by
    rw [holding, found]
    rfl
  exact (run.laidOut index _ held position inside).length_eq

section Removal

variable {index : Nat} {operator : Operator} {sender : Address}
  {blockNumber : Nat} {indexes : List Nat}

/-- The accepted lists. -/
theorem removeValidators_accepts (reachable : registry.Reachable)
    (found : registry.operators[index]? = some operator) :
    (∃ after, registry.removeValidators sender blockNumber index indexes =
        .ok after) ↔
      registry.onlyOperatorOrAdmin sender index = .ok () ∧ indexes ≠ [] ∧
      indexes.Pairwise (· > ·) ∧
      ∀ keyIndex ∈ indexes,
        operator.funded ≤ keyIndex ∧ keyIndex < operator.keys := by
  have small := (reachable.tiered.of_found found).keys_lt
  constructor
  · rintro ⟨after, returned⟩
    obtain ⟨authorized, lastIndex, last, aboveFunded, removable, -⟩ :=
      (removeValidators_eq_ok found small).mp returned
    refine ⟨authorized, List.ne_nil_of_mem (List.mem_of_getLast? last),
      removable.descending, ?_⟩
    intro keyIndex member
    exact ⟨aboveFunded.trans (removable.last_le last keyIndex member),
      removable.below keyIndex member⟩
  · rintro ⟨authorized, nonempty, descending, between⟩
    have last := List.getLast?_eq_some_getLast nonempty
    refine ⟨_, (removeValidators_eq_ok found small).mpr ⟨authorized, _, last,
      (between _ (List.getLast_mem nonempty)).1,
      ⟨descending, fun keyIndex member => (between keyIndex member).2⟩, ?_,
      rfl⟩⟩
    intro keyIndex member
    exact (reachable.entry_length found keyIndex (between keyIndex member).2).ge

end Removal

/-- A removal is accepted exactly for a nonempty strictly descending list of
positions that are not funded.  The entries that remain are those at the other
positions, the ones below the smallest listed position stay in place, the
positions freed at the end are empty, and the emitted keys are those stored at
the listed positions before the call. -/
theorem removal_exact (reachable : registry.Reachable) {index : Nat}
    {operator : Operator}
    (found : registry.operators[index]? = some operator) (sender : Address)
    (blockNumber : Nat) (indexes : List Nat) :
    ((∃ after, registry.removeValidators sender blockNumber index indexes =
        .ok after) ↔
      registry.onlyOperatorOrAdmin sender index = .ok () ∧ indexes ≠ [] ∧
      indexes.Pairwise (· > ·) ∧
      ∀ keyIndex ∈ indexes,
        operator.funded ≤ keyIndex ∧ keyIndex < operator.keys) ∧
    ∀ after, registry.removeValidators sender blockNumber index indexes =
        .ok after →
      (∃ later, after.operators[index]? = some later ∧
        later.keys = operator.keys - indexes.length) ∧
      ((List.range (operator.keys - indexes.length)).map
          (after.validatorKeys index)).Perm
        (((List.range operator.keys).filter (· ∉ indexes)).map
          (registry.validatorKeys index)) ∧
      (∀ position, (∀ keyIndex ∈ indexes, position < keyIndex) →
        after.validatorKeys index position =
          registry.validatorKeys index position) ∧
      (∀ position < operator.funded, after.validatorKeys index position =
        registry.validatorKeys index position) ∧
      (∀ position < operator.keys,
        operator.keys - indexes.length ≤ position →
        after.validatorKeys index position = []) ∧
      (∀ other ≠ index,
        after.validatorKeys other = registry.validatorKeys other) ∧
      after.logs = registry.logs ++ indexes.map fun keyIndex =>
        .removedValidatorKey index
          (pair (registry.validatorKeys index keyIndex)).1 := by
  refine ⟨removeValidators_accepts reachable found, ?_⟩
  intro after returned
  have funded := fun keyIndex member =>
    (((removeValidators_accepts reachable found).mp ⟨after, returned⟩).2.2.2
      keyIndex member).1
  obtain ⟨-, lastIndex, -, -, removable, -, rfl⟩ := (removeValidators_eq_ok
    found (reachable.tiered.of_found found).keys_lt).mp returned
  have entries : ((registry.withoutKeys index operator.keys
      indexes).setOperator index (shrunkOperator operator blockNumber
        lastIndex indexes.length)).validatorKeys index = _ := withoutKeys_self
  rw [entries]
  refine ⟨⟨_, List.getElem?_set_self (List.getElem?_eq_some_iff.mp found).1,
    rfl⟩, SwapRemove.removeEach_perm removable, ?_, ?_, ?_, ?_, rfl⟩
  · intro position smaller
    exact SwapRemove.removeEach_below removable smaller
  · intro position notFunded
    exact SwapRemove.removeEach_below removable fun keyIndex member =>
      notFunded.trans_le (funded keyIndex member)
  · intro position inside freed
    exact SwapRemove.removeEach_blank removable (by omega) inside
  · intro other different
    exact withoutKeys_other different

/-- The last of three keys takes the place of the second one, and from there
that of the first one. -/
theorem removal_exact_sample :
    ∃ history registry after,
      replay [] (fresh .zero) (sampleActions.take 3) =
        .ok (history, registry) ∧
      registry.removeValidators .zero 5 0 [1, 0] = .ok after ∧
      ([0].map (after.validatorKeys 0)).Perm
        ([2].map (registry.validatorKeys 0)) ∧
      after.validatorKeys 0 1 = [] ∧ after.validatorKeys 0 2 = [] ∧
      after.logs = registry.logs ++ [1, 0].map fun keyIndex =>
        .removedValidatorKey 0 (pair (registry.validatorKeys 0 keyIndex)).1 := by
  have checked : returns (replay [] (fresh .zero) (sampleActions.take 3))
      (fun run => decide (run.2.operators.map Operator.keys = [3]) &&
        returns (run.2.removeValidators .zero 5 0 [1, 0]) fun _ => true) =
      true := by
    decide +kernel
  obtain ⟨⟨history, registry⟩, replayed, facts⟩ := returns_iff.mp checked
  obtain ⟨three, removing⟩ := Bool.and_eq_true_iff.mp facts
  obtain ⟨after, removed, -⟩ := returns_iff.mp removing
  obtain ⟨operator, operators, keys⟩ :=
    List.map_eq_singleton_iff.mp (of_decide_eq_true three)
  have found : registry.operators[0]? = some operator := by
    rw [operators]
    rfl
  have run : History .zero history registry :=
    History.replay .start replayed
  obtain ⟨-, exact_on⟩ :=
    removal_exact run.reachable found .zero 5 [1, 0]
  obtain ⟨-, kept, -, -, freed, -, emitted⟩ := exact_on after removed
  rw [keys] at kept freed
  exact ⟨history, registry, after, replayed, removed, kept,
    freed 1 (by decide) (by decide), freed 2 (by decide) (by decide),
    emitted⟩

end OperatorsRegistry

end RiverProtocol
