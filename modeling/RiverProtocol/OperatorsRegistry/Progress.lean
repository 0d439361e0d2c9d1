import RiverProtocol.OperatorsRegistry.Steps

/-!
# Why the calls of a report to the registry complete

The array of stopped counts is checked explicitly; the arithmetic behind the
checks cannot fail but for a count past its width.
-/

namespace RiverProtocol

open Checked Outcome

namespace OperatorsRegistry

variable {registry : OperatorsRegistry}

theorem completes_getStoppedAndRequestedExitCounts :
    Completes registry.getStoppedAndRequestedExitCounts :=
  .bind completes_uadd fun _ _ => .pure _

/-- Exits are only demanded of validators that are not requested yet. -/
theorem completes_demandValidatorExits {count deposited : Nat}
    (accounted : Accounted registry deposited) :
    Completes (registry.demandValidatorExits count deposited) := by
  refine .bind completes_uadd fun requested added => ?_
  obtain ⟨-, rfl⟩ := uadd_eq_ok.mp added
  refine .bind (completes_usub accounted.demand) fun room _ => ?_
  dsimp only
  split
  · exact .bind completes_uadd fun _ _ => .pure _
  · exact .pure _

/-- The checks on an array of stopped counts, whose first element is
`total`. -/
structure AcceptedCounts (registry : OperatorsRegistry)
    (deposited total : Nat) (counts : List Nat) : Prop where
  known : counts.length ≤ registry.operators.length
  kept : registry.stoppedValidators.length ≤ counts.length + 1
  grown : ∀ (index count current : Nat), counts[index]? = some count →
    registry.stoppedValidators[index + 1]? = some current → current ≤ count
  funded : ∀ (index count : Nat) (operator : Operator),
    counts[index]? = some count →
    registry.operators[index]? = some operator → count ≤ operator.funded
  sum : total = counts.sum
  total_le : total ≤ deposited

theorem completes_stopOne {loop : StoppedLoop} {index stoppedCount : Nat}
    {operator : Operator} (found : loop.operators[index]? = some operator)
    (bounded : stoppedCount ≤ operator.funded) :
    Completes (stopOne loop index stoppedCount) := by
  have inside := (List.getElem?_eq_some_iff.mp found).1
  refine .bind (.fetch inside) fun fetched fetching => ?_
  have same : operator = fetched :=
    Option.some.inj (found.symm.trans (fetch_eq_ok.mp fetching))
  subst same
  refine .bind (.require bounded) fun _ _ => ?_
  refine .bind ?_ fun _ _ => .bind completes_uadd32 fun _ _ => .pure _
  split
  · rename_i more
    exact .bind (completes_usub (Nat.le_of_lt more)) fun _ _ =>
      .bind completes_uadd fun _ _ => .pure _
  · exact .pure _

/-- An iteration adds its count and changes no funded count. -/
theorem stopOne_frame {loop after : StoppedLoop} {index stoppedCount : Nat}
    (returned : stopOne loop index stoppedCount = .ok after) :
    after.count = loop.count + stoppedCount ∧
      after.operators.map Operator.funded =
        loop.operators.map Operator.funded := by
  simp only [stopOne, bind_eq_ok, fetch_eq_ok, require_eq_ok, uadd32_eq_ok,
    pure_eq_ok, Prod.exists] at returned
  obtain ⟨operator, found, -, -, operators, sum, writing, count, ⟨-, rfl⟩,
    rfl⟩ := returned
  refine ⟨rfl, ?_⟩
  split at writing
  · simp only [bind_eq_ok, usub_eq_ok, uadd_eq_ok, pure_eq_ok,
      Prod.mk.injEq] at writing
    obtain ⟨unsolicited, -, added, -, rfl, -⟩ := writing
    obtain ⟨inside, atIndex⟩ := List.getElem?_eq_some_iff.mp found
    have insideMap : index < (loop.operators.map Operator.funded).length := by
      rw [List.length_map]
      exact inside
    have kept : operator.funded =
        (loop.operators.map Operator.funded)[index] := by
      rw [List.getElem_map, atIndex]
    rw [List.map_set]
    dsimp only
    rw [kept]
    exact List.set_getElem_self _
  · simp only [pure_eq_ok, Prod.mk.injEq] at writing
    rw [← writing.1]

theorem completes_stopEach {index : Nat} {counts current : List Nat}
    {loop : StoppedLoop}
    (funded : ∀ (position count : Nat), counts[position]? = some count →
      ∃ operator, loop.operators[index + position]? = some operator ∧
        count ≤ operator.funded)
    (grown : ∀ (position count old : Nat), counts[position]? = some count →
      current[position]? = some old → old ≤ count) :
    Completes (stopEach index counts current loop) := by
  induction counts generalizing index current loop with
  | nil => exact .pure _
  | cons stoppedCount counts induction =>
      obtain ⟨operator, found, bounded⟩ := funded 0 stoppedCount rfl
      have remaining : ∀ rest next,
          stopOne loop index stoppedCount = .ok next →
          (∀ (position count old : Nat), counts[position]? = some count →
            rest[position]? = some old → old ≤ count) →
          Completes (stopEach (index + 1) counts rest next) := by
        intro rest next stopping grownRest
        apply induction ?_ grownRest
        intro position count counted
        obtain ⟨later, laterFound, laterBounded⟩ := funded (position + 1) count
          counted
        have mapped := congrArg (fun funded : List Nat =>
          funded[index + (position + 1)]?) (stopOne_frame stopping).2
        simp only [List.getElem?_map, laterFound, Option.map_some,
          Option.map_eq_some_iff] at mapped
        obtain ⟨stopped, stoppedFound, sameFunded⟩ := mapped
        refine ⟨stopped, ?_, ?_⟩
        · rw [Nat.add_assoc, Nat.add_comm 1]
          exact stoppedFound
        · rw [sameFunded]
          exact laterBounded
      cases current with
      | nil =>
          refine .bind (completes_stopOne found bounded) fun next stopping => ?_
          exact remaining [] next stopping (by simp)
      | cons old current =>
          refine .bind (.require (grown 0 stoppedCount old rfl rfl))
            fun _ _ => ?_
          refine .bind (completes_stopOne found bounded) fun next stopping => ?_
          apply remaining current next stopping
          intro position count older counted stored
          exact grown (position + 1) count older counted stored

theorem stopEach_count {index : Nat} {counts current : List Nat}
    {loop after : StoppedLoop}
    (returned : stopEach index counts current loop = .ok after) :
    after.count = loop.count + counts.sum := by
  induction counts generalizing index current loop with
  | nil =>
      simp only [stopEach, pure_eq_ok] at returned
      rw [returned, List.sum_nil, Nat.add_zero]
  | cons stoppedCount counts induction =>
      obtain ⟨next, rest, first, remaining⟩ := stopEach_cons returned
      rw [induction remaining, (stopOne_frame first).1, List.sum_cons,
        Nat.add_assoc]

theorem completes_reportStoppedValidatorCounts {deposited total : Nat}
    {counts : List Nat}
    (accepted : AcceptedCounts registry deposited total counts) :
    Completes (registry.reportStoppedValidatorCounts (total :: counts)
      deposited) := by
  refine .bind (.require accepted.known) fun _ _ => ?_
  refine .bind (.require accepted.kept) fun _ _ => ?_
  refine .bind (completes_stopEach ?_ ?_) fun loop looping => ?_
  · intro position count counted
    have inside := (List.getElem?_eq_some_iff.mp counted).1
    have known := accepted.known
    have found : registry.operators[0 + position]? =
        some registry.operators[position] := by
      rw [Nat.zero_add]
      exact List.getElem?_eq_getElem _
    refine ⟨_, found, accepted.funded position count _ counted ?_⟩
    rw [Nat.zero_add] at found
    exact found
  · intro position count old counted stored
    rw [List.getElem?_tail] at stored
    exact accepted.grown position count old counted stored
  · refine .bind completes_uadd fun requested _ => ?_
    rw [LibUint256.min_eq]
    refine .bind (completes_usub (Nat.min_le_right _ _)) fun demand _ => ?_
    have count := stopEach_count looping
    refine .bind (.require ?_) fun _ _ =>
      .bind (.require accepted.total_le) fun _ _ => .pure _
    rw [count, accepted.sum, Nat.zero_add]

end OperatorsRegistry

end RiverProtocol
