import RiverProtocol.OperatorsRegistry.Keys

/-!
# Audited keys

A raise of a limit happens against a snapshot block, and the block of the last
edit of the keys guards it.  What is below a limit was below a raised limit
when it was raised, and unless a block number outgrew 64 bits it was stored at
the end of the snapshot block.
-/

namespace RiverProtocol

open Checked Outcome Lists

namespace OperatorsRegistry

open ValidatorKeys (entryLength)

/-- A call that sets limits against a snapshot block. -/
def Action.SetsLimits (action : Action) (snapshotBlock : Nat) : Prop :=
  ∃ sender operatorIndexes newLimits, action =
    .manage sender (.setOperatorLimits operatorIndexes newLimits snapshotBlock)

section Change

variable {blockNumber index : Nat} {action : Action}
  {holding later : Holding}

/-- Outside `setOperatorLimits` limits do not rise, and entries below them
were below them before. -/
theorem Change.below_limit
    (change : Change blockNumber index action holding later)
    (tiered : holding.Tiered) (other : ∀ block, ¬ action.SetsLimits block) :
    later.operator.limit ≤ holding.operator.limit ∧
      ∀ position < later.operator.limit,
        ∃ origin < holding.operator.limit,
          later.entries position = holding.entries origin := by
  cases change with
  | renamed limit =>
      rw [limit]
      exact ⟨Nat.le_refl _, fun position below => ⟨position, below, rfl⟩⟩
  | limited => exact absurd ⟨_, _, _, rfl⟩ (other _)
  | keysAdded length fits laidOut =>
      refine ⟨Nat.le_refl _, fun position below => ⟨position, below, ?_⟩⟩
      have stored := below.trans_le tiered.limit_le
      dsimp only at stored ⊢
      rw [laidOut position, if_neg (by omega)]
  | keysRemoved aboveFunded inside count kept moved limit =>
      have limits := tiered.limit_le
      dsimp only
      split at limit
      · rename_i full
        refine ⟨by omega, ?_⟩
        intro position below
        obtain ⟨origin, stored, same⟩ := moved position (limit ▸ below)
        exact ⟨origin, full ▸ stored, same⟩
      · split at limit
        · refine ⟨by omega, ?_⟩
          intro position below
          exact ⟨position, by omega, kept position (limit ▸ below)⟩
        · refine ⟨Nat.le_of_eq limit, ?_⟩
          intro position below
          exact ⟨position, by omega, kept position (by omega)⟩
  | _ => exact ⟨Nat.le_refl _, fun position below => ⟨position, below, rfl⟩⟩

/-- A call of `setOperatorLimits` writes no entry, and raises a limit only
when no key was edited after the snapshot block. -/
theorem Change.of_setsLimits {snapshotBlock : Nat}
    (change : Change blockNumber index action holding later)
    (sets : action.SetsLimits snapshotBlock) :
    later.entries = holding.entries ∧
      later.operator.latestKeysEditBlockNumber =
        holding.operator.latestKeysEditBlockNumber ∧
      (holding.operator.limit < later.operator.limit →
        holding.operator.latestKeysEditBlockNumber ≤ snapshotBlock) := by
  obtain ⟨sender, operatorIndexes, newLimits, rfl⟩ := sets
  cases change with
  | renamed limit _ _ _ latest =>
      refine ⟨rfl, latest, ?_⟩
      intro raised
      dsimp only at raised
      omega
  | limited _ _ guarded => exact ⟨rfl, rfl, guarded⟩

theorem Change.edited
    (change : Change blockNumber index action holding later) :
    (later.entries = holding.entries ∧
        later.operator.latestKeysEditBlockNumber =
          holding.operator.latestKeysEditBlockNumber) ∨
      later.operator.latestKeysEditBlockNumber = toUint64 blockNumber := by
  cases change with
  | renamed _ _ _ _ latest => exact .inl ⟨rfl, latest⟩
  | keysAdded => exact .inr rfl
  | keysRemoved => exact .inr rfl
  | _ => exact .inl ⟨rfl, rfl⟩

end Change

section Changes

variable {blockNumber index snapshotBlock : Nat} {action : Action}
  {holding later : Holding}

theorem changes_below_limit
    (changes : Relation.ReflTransGen (Change blockNumber index action)
      holding later)
    (tiered : holding.Tiered) (other : ∀ block, ¬ action.SetsLimits block) :
    later.Tiered ∧ later.operator.limit ≤ holding.operator.limit ∧
      ∀ position < later.operator.limit,
        ∃ origin < holding.operator.limit,
          later.entries position = holding.entries origin := by
  induction changes with
  | refl =>
      exact ⟨tiered, Nat.le_refl _, fun position below =>
        ⟨position, below, rfl⟩⟩
  | tail _ change induction =>
      obtain ⟨tieredNext, limit, origins⟩ := induction
      obtain ⟨limitLater, originsLater⟩ :=
        change.below_limit tieredNext other
      refine ⟨change.tiered tieredNext, limitLater.trans limit, ?_⟩
      intro position below
      obtain ⟨middle, belowMiddle, same⟩ := originsLater position below
      obtain ⟨origin, belowOrigin, sameMiddle⟩ := origins middle belowMiddle
      exact ⟨origin, belowOrigin, same.trans sameMiddle⟩

theorem changes_of_setsLimits
    (changes : Relation.ReflTransGen (Change blockNumber index action)
      holding later)
    (sets : action.SetsLimits snapshotBlock) :
    later.entries = holding.entries ∧
      later.operator.latestKeysEditBlockNumber =
        holding.operator.latestKeysEditBlockNumber ∧
      (holding.operator.limit < later.operator.limit →
        holding.operator.latestKeysEditBlockNumber ≤ snapshotBlock) := by
  induction changes with
  | refl =>
      exact ⟨rfl, rfl, fun raised => absurd raised (Nat.lt_irrefl _)⟩
  | @tail next later _ change induction =>
      obtain ⟨entries, latest, guarded⟩ := induction
      obtain ⟨entriesLater, latestLater, guardedLater⟩ :=
        change.of_setsLimits sets
      refine ⟨entriesLater.trans entries, latestLater.trans latest, ?_⟩
      intro raised
      by_cases first : holding.operator.limit < next.operator.limit
      · exact guarded first
      · rw [← latest]
        apply guardedLater
        omega

theorem changes_edited
    (changes : Relation.ReflTransGen (Change blockNumber index action)
      holding later) :
    (later.entries = holding.entries ∧
        later.operator.latestKeysEditBlockNumber =
          holding.operator.latestKeysEditBlockNumber) ∨
      later.operator.latestKeysEditBlockNumber = toUint64 blockNumber := by
  induction changes with
  | refl => exact .inl ⟨rfl, rfl⟩
  | tail _ change induction =>
      rcases change.edited with ⟨entries, latest⟩ | latest
      · rw [entries, latest]
        exact induction
      · exact .inr latest

end Changes

/-- A transaction raised the limit of an operator to `newLimit` against a
snapshot block. -/
def Transaction.Raises (audit : Transaction)
    (index snapshotBlock newLimit : Nat) : Prop :=
  audit.action.SetsLimits snapshotBlock ∧
    ∃ operator raised, audit.before.operators[index]? = some operator ∧
      audit.after.operators[index]? = some raised ∧
      operator.limit < raised.limit ∧ newLimit = raised.limit

/-- The registry after the last transaction up to a block. -/
def atEndOf (admin : Address) (history : List Transaction)
    (block : Nat) : OperatorsRegistry :=
  match (history.filter (·.blockNumber ≤ block)).getLast? with
  | some transaction => transaction.after
  | none => fresh admin

/-- Blocks come in order. -/
def BlocksOrdered (history : List Transaction) : Prop :=
  (history.map Transaction.blockNumber).Pairwise (· ≤ ·)

section History

variable {admin : Address} {history earlier later : List Transaction}
  {transaction : Transaction} {registry : OperatorsRegistry}
  {index block : Nat}

theorem atEndOf_concat :
    atEndOf admin (history ++ [transaction]) block =
      if transaction.blockNumber ≤ block then transaction.after
      else atEndOf admin history block := by
  by_cases within : transaction.blockNumber ≤ block
  · have last : ((history ++ [transaction]).filter
        (·.blockNumber ≤ block)).getLast? = some transaction := by
      simp [List.filter_append, within]
    rw [if_pos within, atEndOf, last]
  · have same : (history ++ [transaction]).filter (·.blockNumber ≤ block) =
        history.filter (·.blockNumber ≤ block) := by
      simp [List.filter_append, within]
    rw [if_neg within, atEndOf, same, atEndOf]

theorem atEndOf_append
    (after : ∀ transaction ∈ later, block < transaction.blockNumber) :
    atEndOf admin (earlier ++ later) block = atEndOf admin earlier block := by
  rw [atEndOf, atEndOf, List.filter_append]
  have none : later.filter (·.blockNumber ≤ block) = [] := by
    rw [List.filter_eq_nil_iff]
    intro transaction member
    simpa using after transaction member
  rw [none, List.append_nil]

theorem BlocksOrdered.of_append
    (ordered : BlocksOrdered (earlier ++ transaction :: later)) :
    BlocksOrdered earlier ∧
      ∀ other ∈ transaction :: later,
        transaction.blockNumber ≤ other.blockNumber := by
  rw [BlocksOrdered, List.map_append, List.pairwise_append] at ordered
  obtain ⟨before, behind, -⟩ := ordered
  rw [List.map_cons, List.pairwise_cons] at behind
  refine ⟨before, ?_⟩
  intro other member
  cases List.mem_cons.mp member with
  | inl same => exact same ▸ Nat.le_refl _
  | inr later => exact behind.1 _ (List.mem_map_of_mem later)

/-- The entry was below the new limit when a limit of the operator was
raised. -/
def Audited (history : List Transaction) (index : Nat) (entry : Bytes) :
    Prop :=
  ∃ audit ∈ history, ∃ snapshotBlock newLimit,
    audit.Raises index snapshotBlock newLimit ∧
      ∃ position < newLimit,
        entry = audit.before.validatorKeys index position

theorem Audited.append {entry : Bytes}
    (audited : Audited history index entry) :
    Audited (history ++ later) index entry := by
  obtain ⟨audit, member, rest⟩ := audited
  exact ⟨audit, List.mem_append_left _ member, rest⟩

theorem holding_eq_some {holding : Holding} :
    registry.holding index = some holding ↔
      ∃ operator, registry.operators[index]? = some operator ∧
        holding =
          { operator := operator
            entries := registry.validatorKeys index
            stopped := registry.getStoppedValidatorsCount index } := by
  rw [OperatorsRegistry.holding, Option.map_eq_some_iff]
  constructor
  · rintro ⟨operator, found, rfl⟩
    exact ⟨operator, found, rfl⟩
  · rintro ⟨operator, found, rfl⟩
    exact ⟨operator, found, rfl⟩

theorem History.audited (run : History admin history registry) :
    ∀ index holding, registry.holding index = some holding →
      ∀ position < holding.operator.limit,
        Audited history index (holding.entries position) := by
  induction run with
  | start => simp [holding, fresh]
  | @next history registry after action blockNumber validators run returned
      induction =>
      intro index later held
      have evolves := Action.apply_evolves run.tiered returned
      by_cases inside : index < registry.operators.length
      · have found : registry.operators[index]? =
            some registry.operators[index] := List.getElem?_eq_getElem inside
        have heldBefore := holding_eq_some.mpr ⟨_, found, rfl⟩
        obtain ⟨reached, heldReached, changes⟩ :=
          evolves.changed index _ heldBefore
        obtain rfl : reached = later :=
          Option.some.inj (heldReached.symm.trans held)
        have before := induction index _ heldBefore
        by_cases sets : ∃ block, action.SetsLimits block
        · obtain ⟨snapshotBlock, sets⟩ := sets
          obtain ⟨entries, -, -⟩ := changes_of_setsLimits changes sets
          intro position below
          by_cases raised : registry.operators[index].limit <
              reached.operator.limit
          · obtain ⟨operator, foundAfter, rfl⟩ := holding_eq_some.mp held
            refine ⟨_, List.mem_append_right _ List.mem_cons_self,
              snapshotBlock, _, ⟨sets, _, _, found, foundAfter, raised, rfl⟩,
              position, below, ?_⟩
            rw [entries]
          · rw [entries]
            exact (before position (by dsimp only; omega)).append
        · obtain ⟨-, -, origins⟩ := changes_below_limit changes
            (run.tiered.of_found found)
            (fun block each => sets ⟨block, each⟩)
          intro position below
          obtain ⟨origin, belowBefore, same⟩ := origins position below
          rw [same]
          exact (before origin belowBefore).append
      · obtain ⟨newcomer, -⟩ := evolves.added_holding run.tiered
          (Nat.le_of_not_lt inside) held
        intro position below
        rw [newcomer.limit] at below
        exact absurd below (Nat.not_lt_zero _)

/-- Since the last edit of its keys an operator has had the same entries. -/
theorem History.unedited (run : History admin history registry)
    (ordered : BlocksOrdered history)
    (small : ∀ transaction ∈ history,
      transaction.blockNumber < uint64Limit) :
    ∀ index holding, registry.holding index = some holding →
      ∀ block, holding.operator.latestKeysEditBlockNumber ≤ block →
        (atEndOf admin history block).validatorKeys index =
          holding.entries := by
  induction run with
  | start => simp [holding, fresh]
  | @next history registry after action blockNumber validators run returned
      induction =>
      intro index later held block edited
      have evolves := Action.apply_evolves run.tiered returned
      rw [atEndOf_concat]
      by_cases ended : blockNumber ≤ block
      · obtain ⟨operator, -, rfl⟩ := holding_eq_some.mp held
        rw [if_pos ended]
      · rw [if_neg ended]
        have cast : toUint64 blockNumber = blockNumber :=
          Nat.mod_eq_of_lt (small _
            (List.mem_append_right _ List.mem_cons_self))
        by_cases inside : index < registry.operators.length
        · have heldBefore := holding_eq_some.mpr
            ⟨_, List.getElem?_eq_getElem inside, rfl⟩
          obtain ⟨reached, heldReached, changes⟩ :=
            evolves.changed index _ heldBefore
          obtain rfl : reached = later :=
            Option.some.inj (heldReached.symm.trans held)
          rcases changes_edited changes with ⟨entries, latest⟩ | latest
          · rw [entries]
            apply induction (ordered.of_append).1
              (fun other member => small other
                (List.mem_append_left _ member)) index _ heldBefore
            rw [← latest]
            exact edited
          · omega
        · obtain ⟨newcomer, -⟩ := evolves.added_holding run.tiered
            (Nat.le_of_not_lt inside) held
          have latest := newcomer.latest
          omega

/-- A limit is raised over the entries the snapshot block ended with. -/
theorem History.raised (run : History admin history registry)
    (ordered : BlocksOrdered history)
    (small : ∀ transaction ∈ history,
      transaction.blockNumber < uint64Limit)
    {audit : Transaction} {snapshotBlock newLimit : Nat}
    (member : audit ∈ history)
    (raises : audit.Raises index snapshotBlock newLimit)
    (past : snapshotBlock < audit.blockNumber) :
    (atEndOf admin history snapshotBlock).validatorKeys index =
      audit.before.validatorKeys index := by
  obtain ⟨earlier, later, rfl⟩ := List.append_of_mem member
  obtain ⟨before, returned⟩ := run.at_transaction rfl
  obtain ⟨orderedBefore, behind⟩ := ordered.of_append
  rw [atEndOf_append fun other listed => past.trans_le (behind other listed)]
  obtain ⟨sets, operator, raised, found, foundAfter, higher, -⟩ := raises
  have evolves := Action.apply_evolves before.tiered returned
  have heldBefore := holding_eq_some.mpr ⟨_, found, rfl⟩
  obtain ⟨reached, heldReached, changes⟩ :=
    evolves.changed index _ heldBefore
  have heldAfter := holding_eq_some.mpr ⟨_, foundAfter, rfl⟩
  obtain rfl := Option.some.inj (heldReached.symm.trans heldAfter)
  obtain ⟨-, -, guarded⟩ := changes_of_setsLimits changes sets
  exact before.unedited orderedBefore
    (fun other listed => small other (List.mem_append_left _ listed))
    index _ heldBefore snapshotBlock (guarded higher)

theorem blocksOrdered_of_replay {actions : List (Nat × Action)}
    (returned : replay [] (fresh admin) actions = .ok (history, registry))
    (ordered : (actions.map Prod.fst).Pairwise (· ≤ ·)) :
    BlocksOrdered history := by
  have actionsOf := congrArg (List.map Prod.fst) (replay_actions returned)
  rw [List.map_map] at actionsOf
  rw [BlocksOrdered]
  exact actionsOf ▸ ordered

/-- An entry below a limit was below the new limit at an earlier raise, whose
entries were stored at the end of its snapshot block while block numbers fit
64 bits; nothing but `setOperatorLimits` raises a limit. -/
theorem limits_audited (run : History admin history registry)
    (ordered : BlocksOrdered history) :
    ∀ (index : Nat) (operator : Operator),
      registry.operators[index]? = some operator →
      (∀ idx < operator.limit, ∃ audit ∈ history,
        ∃ snapshotBlock newLimit,
          audit.Raises index snapshotBlock newLimit ∧
          (∃ position < newLimit, registry.validatorKeys index idx =
            audit.before.validatorKeys index position) ∧
          ((∀ transaction ∈ history,
              transaction.blockNumber < uint64Limit) →
            snapshotBlock < audit.blockNumber →
            ∀ position < newLimit,
              (atEndOf admin history snapshotBlock).validatorKeys index
                  position =
                audit.before.validatorKeys index position)) ∧
      ∀ (action : Action) (blockNumber : Nat) (after : OperatorsRegistry)
        (validators : List (Bytes × Bytes)),
        action.apply registry blockNumber = .ok (after, validators) →
        (∀ snapshotBlock, ¬ action.SetsLimits snapshotBlock) →
        ∃ later, after.operators[index]? = some later ∧
          later.limit ≤ operator.limit := by
  intro index operator found
  have held := holding_eq_some.mpr ⟨operator, found, rfl⟩
  constructor
  · intro idx below
    obtain ⟨audit, member, snapshotBlock, newLimit, raises, stored⟩ :=
      run.audited index _ held idx below
    refine ⟨audit, member, snapshotBlock, newLimit, raises, stored, ?_⟩
    intro small past position _
    rw [run.raised ordered small member raises past]
  · intro action blockNumber after validators returned other
    have evolves := Action.apply_evolves run.tiered returned
    obtain ⟨later, heldLater, changes⟩ := evolves.changed index _ held
    obtain ⟨-, limit, -⟩ := changes_below_limit changes
      (run.tiered.of_found found) other
    obtain ⟨present, foundLater, rfl⟩ := holding_eq_some.mp heldLater
    exact ⟨present, foundLater, limit⟩

end History

theorem limits_audited_sample :
    ∃ history registry, sampleHistory = .ok (history, registry) ∧
      ∃ audit ∈ history, ∃ snapshotBlock newLimit,
        audit.Raises 0 snapshotBlock newLimit ∧
        ∃ position < newLimit, registry.validatorKeys 0 1 =
          audit.before.validatorKeys 0 position := by
  have checked : returns sampleHistory (fun result =>
      result.2.operators.map Operator.limit = [2]) = true := by
    decide +kernel
  obtain ⟨⟨history, registry⟩, returned, facts⟩ := returns_iff.mp checked
  have run : History .zero history registry := History.start.replay returned
  have ordered : BlocksOrdered history :=
    blocksOrdered_of_replay returned (by decide)
  obtain ⟨operator, rest, operators, two, -⟩ :=
    List.map_eq_cons_iff.mp (of_decide_eq_true facts)
  have found : registry.operators[0]? = some operator := by
    dsimp only at operators
    rw [operators]
    rfl
  obtain ⟨audited, -⟩ := limits_audited run ordered 0 operator found
  obtain ⟨audit, member, snapshotBlock, newLimit, raises, stored, -⟩ :=
    audited 1 (two ▸ Nat.one_lt_two)
  exact ⟨history, registry, returned, audit, member, snapshotBlock, newLimit,
    raises, stored⟩

/-- Keys added at block `2 ^ 64` are recorded as edited at block zero. -/
def lateActions : List (Nat × Action) :=
  [(0, .manage .zero (.addOperator "operator" (.ofNat 1))),
    (uint64Limit, .manage .zero (.addValidators 0 1
      (sampleEntries.take entryLength))),
    (uint64Limit + 1, .manage .zero (.setOperatorLimits [0] [1] 0))]

theorem limits_audited_not_late :
    ∃ history registry operator, History .zero history registry ∧
      BlocksOrdered history ∧ registry.operators[0]? = some operator ∧
      0 < operator.limit ∧
      ¬ ∃ audit ∈ history, ∃ snapshotBlock newLimit,
        audit.Raises 0 snapshotBlock newLimit ∧
        (∃ position < newLimit, registry.validatorKeys 0 0 =
          audit.before.validatorKeys 0 position) ∧
        (snapshotBlock < audit.blockNumber → ∀ position < newLimit,
          (atEndOf .zero history snapshotBlock).validatorKeys 0 position =
            audit.before.validatorKeys 0 position) := by
  have checked : returns (replay [] (fresh .zero) lateActions) (fun result =>
      result.2.operators.map Operator.limit = [1] ∧
        ∀ audit ∈ result.1, audit.blockNumber = uint64Limit + 1 →
          (atEndOf .zero result.1 0).validatorKeys 0 0 ≠
            audit.before.validatorKeys 0 0) = true := by
    decide +kernel
  obtain ⟨⟨history, registry⟩, returned, facts⟩ := returns_iff.mp checked
  obtain ⟨limits, differ⟩ := of_decide_eq_true facts
  have run : History .zero history registry := History.start.replay returned
  obtain ⟨operator, rest, operators, one, -⟩ :=
    List.map_eq_cons_iff.mp limits
  have found : registry.operators[0]? = some operator := by
    dsimp only at operators
    rw [operators]
    rfl
  refine ⟨history, registry, operator, run,
    blocksOrdered_of_replay returned (by decide), found,
    one ▸ Nat.one_pos, ?_⟩
  rintro ⟨audit, member, snapshotBlock, newLimit, raises, -, same⟩
  obtain ⟨⟨sender, operatorIndexes, newLimits, action⟩, before, raised, -, -,
    higher, rfl⟩ := raises
  have listed : (audit.blockNumber, audit.action) ∈ lateActions := by
    have actions := replay_actions returned
    rw [List.map_nil, List.nil_append] at actions
    exact actions ▸ List.mem_map_of_mem member
  rw [action] at listed
  simp only [lateActions, List.mem_cons, Prod.mk.injEq, Action.manage.injEq,
    Call.setOperatorLimits.injEq, reduceCtorEq, and_false, false_or,
    List.not_mem_nil, or_false] at listed
  obtain ⟨block, -, -, -, rfl⟩ := listed
  refine differ audit member block (same ?_ 0 (by omega))
  rw [block]
  exact Nat.succ_pos _

end OperatorsRegistry

end RiverProtocol
