import RiverProtocol.OperatorsRegistry.Runs

/-!
# Whose calls edit an operator

Only an administrator adds an operator, turns it on or off, or raises its
limit.  Its keys, its name and its address are edited by itself or by an
administrator.  What River and the keeper do to it is to fund it and to ask it
for exits.
-/

namespace RiverProtocol

open Checked Outcome

/-- None of the senders is an administrator or may become one. -/
structure Administrable.Apart (administrable : Administrable)
    (senders : Address → Prop) : Prop where
  admin : ¬ senders administrable.admin
  pendingAdmin : ¬ senders administrable.pendingAdmin

namespace OperatorsRegistry

variable {senders : Address → Prop}

/-- An active operator that is one of the senders. -/
def Operator.ActsFor (operator : Operator) (senders : Address → Prop) :
    Prop :=
  operator.active = true ∧ senders operator.operator

/-- What the senders do to an operator when none of them administers the
registry. -/
structure Holding.EditedBy (senders : Address → Prop)
    (holding later : Holding) : Prop where
  active : later.operator.active = holding.operator.active
  limit_le : later.operator.limit ≤ holding.operator.limit
  others : ¬ Operator.ActsFor holding.operator senders →
    later.entries = holding.entries ∧
      later.operator = { holding.operator with
        funded := later.operator.funded
        requestedExits := later.operator.requestedExits }

theorem Holding.EditedBy.refl (holding : Holding) :
    holding.EditedBy senders holding :=
  ⟨rfl, le_rfl, fun _ => ⟨rfl, rfl⟩⟩

theorem Holding.EditedBy.trans {holding middle later : Holding}
    (first : holding.EditedBy senders middle)
    (second : middle.EditedBy senders later) :
    holding.EditedBy senders later where
  active := second.active.trans first.active
  limit_le := second.limit_le.trans first.limit_le
  others idle := by
    obtain ⟨entries, operator⟩ := first.others idle
    have idleMiddle : ¬ Operator.ActsFor middle.operator senders := by
      rw [operator]
      exact idle
    obtain ⟨entriesLater, operatorLater⟩ := second.others idleMiddle
    refine ⟨entriesLater.trans entries, ?_⟩
    rw [operatorLater, operator]

theorem Holding.EditedBy.own {holding later : Holding}
    (own : Operator.ActsFor holding.operator senders)
    (active : later.operator.active = holding.operator.active)
    (limit : later.operator.limit ≤ holding.operator.limit) :
    holding.EditedBy senders later :=
  ⟨active, limit, fun idle => absurd own idle⟩

theorem Holding.EditedBy.counted (holding : Holding)
    (funded requestedExits stopped : Nat) :
    holding.EditedBy senders { holding with
      stopped := stopped
      operator := { holding.operator with
        funded := funded
        requestedExits := requestedExits } } :=
  ⟨rfl, le_rfl, fun _ => ⟨rfl, rfl⟩⟩

theorem Call.action {registry after : OperatorsRegistry} {call : Call}
    {sender : Address} {blockNumber : Nat}
    (returned : call.apply registry sender blockNumber = .ok after) :
    Action.apply (.manage sender call) registry blockNumber =
      .ok (after, []) := by
  simp only [Action.apply, returned]
  rfl

/-- What the senders do to the registry when none of them administers it. -/
structure EditedBy (senders : Address → Prop)
    (registry after : OperatorsRegistry) : Prop where
  administrable : after.administrable = registry.administrable
  length_eq : after.operators.length = registry.operators.length
  operators : ∀ index holding, registry.holding index = some holding →
    ∃ later, after.holding index = some later ∧
      holding.EditedBy senders later

variable {registry middle after : OperatorsRegistry} {sender : Address}
  {blockNumber : Nat}

theorem EditedBy.refl (senders : Address → Prop)
    (registry : OperatorsRegistry) : EditedBy senders registry registry :=
  ⟨rfl, rfl, fun _ holding found => ⟨holding, found, .refl _⟩⟩

theorem EditedBy.trans (first : EditedBy senders registry middle)
    (second : EditedBy senders middle after) :
    EditedBy senders registry after where
  administrable := second.administrable.trans first.administrable
  length_eq := second.length_eq.trans first.length_eq
  operators index holding found := by
    obtain ⟨next, foundNext, edited⟩ := first.operators index holding found
    obtain ⟨later, foundLater, further⟩ :=
      second.operators index next foundNext
    exact ⟨later, foundLater, edited.trans further⟩

theorem EditedBy.of_edits
    (administrable : after.administrable = registry.administrable)
    (edits : Edits (fun _ => Holding.EditedBy senders) registry after) :
    EditedBy senders registry after where
  administrable := administrable
  length_eq := edits.length_eq
  operators index holding found := by
    obtain ⟨later, foundLater, changes⟩ := edits.changed index holding found
    refine ⟨later, foundLater, ?_⟩
    clear foundLater
    induction changes with
    | refl => exact .refl _
    | tail _ change induction => exact induction.trans change

section Manage

variable {index : Nat}

theorem onlyOperatorOrAdmin_own (sent : senders sender)
    (apart : registry.administrable.Apart senders)
    (returned : registry.onlyOperatorOrAdmin sender index = .ok ()) :
    ∃ operator, registry.operators[index]? = some operator ∧
      Operator.ActsFor operator senders := by
  simp only [onlyOperatorOrAdmin] at returned
  split at returned
  · rename_i same
    exact absurd (same ▸ sent) apart.admin
  · simp only [getOperator, bind_eq_ok, fetch_eq_ok, require_eq_ok]
      at returned
    obtain ⟨operator, found, -, active, own⟩ := returned
    exact ⟨operator, found, active, own ▸ sent⟩

theorem EditedBy.of_own {operator edited : Operator}
    (found : registry.operators[index]? = some operator)
    (own : Operator.ActsFor operator senders)
    (administrable : after.administrable = registry.administrable)
    (operators : after.operators = registry.operators.set index edited)
    (entries : ∀ other ≠ index,
      after.validatorKeys other = registry.validatorKeys other)
    (stopped : after.stoppedValidators = registry.stoppedValidators)
    (active : edited.active = operator.active)
    (limit : edited.limit ≤ operator.limit) :
    EditedBy senders registry after :=
  .of_edits administrable
    (.of_set found operators entries stopped (.own own active limit))

theorem addValidators_editedBy {keyCount : Nat} {bytes : Bytes}
    (sent : senders sender)
    (apart : registry.administrable.Apart senders)
    (returned : registry.addValidators sender blockNumber index keyCount
      bytes = .ok after) : EditedBy senders registry after := by
  simp only [addValidators, getOperator, bind_eq_ok, fetch_eq_ok,
    pure_eq_ok] at returned
  obtain ⟨_, authorized, -, -, -, -, operator, found, stored, storing, keys,
    -, rfl⟩ := returned
  obtain ⟨same, foundSame, own⟩ :=
    onlyOperatorOrAdmin_own sent apart authorized
  obtain rfl : operator = same :=
    Option.some.inj (found.symm.trans foundSame)
  exact .of_own found own rfl rfl (storeKeys_ok storing).1 rfl rfl le_rfl

theorem shrunkOperator_limit_le {operator : Operator}
    {lastIndex count : Nat} :
    (shrunkOperator operator blockNumber lastIndex count).limit ≤
      operator.limit := by
  rw [shrunkOperator]
  dsimp only
  split
  · omega
  · split <;> omega

theorem removeValidators_editedBy {indexes : List Nat}
    (sent : senders sender)
    (apart : registry.administrable.Apart senders)
    (tiered : registry.Tiered)
    (returned : registry.removeValidators sender blockNumber index indexes =
      .ok after) : EditedBy senders registry after := by
  obtain ⟨operator, found⟩ := removeValidators_found returned
  obtain ⟨authorized, lastIndex, -, -, -, -, rfl⟩ :=
    (removeValidators_eq_ok found (tiered.of_found found).keys_lt).mp returned
  obtain ⟨same, foundSame, own⟩ :=
    onlyOperatorOrAdmin_own sent apart authorized
  obtain rfl : operator = same :=
    Option.some.inj (found.symm.trans foundSame)
  exact .of_own found own rfl rfl (fun _ => withoutKeys_other) rfl rfl
    shrunkOperator_limit_le

/-- A management call of a sender that is no administrator. -/
theorem Call.apply_editedBy {call : Call} (sent : senders sender)
    (apart : registry.administrable.Apart senders)
    (tiered : registry.Tiered)
    (returned : call.apply registry sender blockNumber = .ok after) :
    EditedBy senders registry after := by
  have notAdmin : sender ≠ registry.administrable.admin := by
    rintro rfl
    exact apart.admin sent
  cases call with
  | proposeAdmin newAdmin =>
      simp only [Call.apply, Administrable.proposeAdmin,
        Administrable.onlyAdmin, bind_eq_ok, require_eq_ok] at returned
      obtain ⟨-, ⟨-, same, -⟩, -⟩ := returned
      exact absurd same notAdmin
  | acceptAdmin =>
      have notPending : sender ≠ registry.administrable.pendingAdmin := by
        rintro rfl
        exact apart.pendingAdmin sent
      simp [Call.apply, Administrable.acceptAdmin, notPending] at returned
  | addOperator name operator =>
      simp [Call.apply, OperatorsRegistry.addOperator,
        Administrable.onlyAdmin, notAdmin] at returned
  | setOperatorStatus index newStatus =>
      simp [Call.apply, OperatorsRegistry.setOperatorStatus,
        Administrable.onlyAdmin, notAdmin] at returned
  | setOperatorLimits operatorIndexes newLimits snapshotBlock =>
      simp [Call.apply, OperatorsRegistry.setOperatorLimits,
        Administrable.onlyAdmin, notAdmin] at returned
  | setOperatorAddress index newOperatorAddress =>
      simp only [Call.apply, OperatorsRegistry.setOperatorAddress,
        getOperator, bind_eq_ok, fetch_eq_ok, pure_eq_ok] at returned
      obtain ⟨_, authorized, -, -, operator, found, rfl⟩ := returned
      obtain ⟨same, foundSame, own⟩ :=
        onlyOperatorOrAdmin_own sent apart authorized
      obtain rfl : operator = same :=
        Option.some.inj (found.symm.trans foundSame)
      exact .of_own found own rfl rfl (fun _ _ => rfl) rfl rfl le_rfl
  | setOperatorName index newName =>
      simp only [Call.apply, OperatorsRegistry.setOperatorName, getOperator,
        bind_eq_ok, fetch_eq_ok, pure_eq_ok] at returned
      obtain ⟨_, authorized, -, -, operator, found, rfl⟩ := returned
      obtain ⟨same, foundSame, own⟩ :=
        onlyOperatorOrAdmin_own sent apart authorized
      obtain rfl : operator = same :=
        Option.some.inj (found.symm.trans foundSame)
      exact .of_own found own rfl rfl (fun _ _ => rfl) rfl rfl le_rfl
  | addValidators index keyCount bytes =>
      exact addValidators_editedBy sent apart returned
  | removeValidators index indexes =>
      exact removeValidators_editedBy sent apart tiered returned

end Manage

section Counters

theorem EditedBy.of_counted
    (administrable : after.administrable = registry.administrable)
    (length : after.operators.length = registry.operators.length)
    (entries : after.validatorKeys = registry.validatorKeys)
    (counted : ∀ (index : Nat) (operator : Operator),
      registry.operators[index]? = some operator →
      ∃ funded requestedExits, after.operators[index]? =
        some { operator with
          funded := funded, requestedExits := requestedExits }) :
    EditedBy senders registry after := by
  refine .of_edits administrable (.of_each length entries ?_)
  intro index operator found
  obtain ⟨funded, requestedExits, foundAfter⟩ := counted index operator found
  exact ⟨_, foundAfter, .counted _ funded requestedExits _⟩

theorem fundEach_administrable
    {pairs : List (OperatorAllocation × List (Bytes × Bytes))}
    (returned : fundEach pairs registry = .ok after) :
    after.administrable = registry.administrable := by
  induction pairs generalizing registry with
  | nil =>
      simp only [fundEach, pure_eq_ok] at returned
      rw [returned]
  | cons pair rest induction =>
      simp only [fundEach, bind_eq_ok] at returned
      obtain ⟨operator, -, funded, -, following⟩ := returned
      have kept := induction following
      exact kept

theorem pickNextValidatorsToDeposit_editedBy
    {allocations : List OperatorAllocation}
    {validators : List (Bytes × Bytes)} (tiered : registry.Tiered)
    (returned : registry.pickNextValidatorsToDeposit allocations =
      .ok (after, validators)) : EditedBy senders registry after := by
  have pick := pickNextValidatorsToDeposit_pick tiered returned
  simp only [pickNextValidatorsToDeposit, bind_eq_ok, pure_eq_ok,
    Prod.mk.injEq] at returned
  obtain ⟨perOperator, -, funded, funding, rfl, -⟩ := returned
  refine .of_counted (fundEach_administrable funding) pick.length_eq
    pick.entries fun index operator found => ?_
  exact ⟨_, _, pick.funded index operator found⟩

theorem requestEachExit_administrable {previous : Option Nat}
    {counted total : Nat} {allocations : List OperatorAllocation}
    (ordered : ∀ operator ∈ registry.operators, operator.Ordered)
    (returned : requestEachExit previous counted allocations registry =
      .ok (after, total)) : after.administrable = registry.administrable := by
  induction allocations generalizing previous counted registry with
  | nil =>
      simp only [requestEachExit, pure_eq_ok, Prod.mk.injEq] at returned
      rw [returned.1]
  | cons allocation rest induction =>
      obtain ⟨operator, -, -, -, orderedNext, following⟩ :=
        requestEachExit_cons ordered returned
      have kept := induction orderedNext following
      exact kept

theorem requestValidatorExits_editedBy {keeper : Address}
    {allocations : List OperatorAllocation} (tiered : registry.Tiered)
    (returned : registry.requestValidatorExits keeper sender allocations =
      .ok after) : EditedBy senders registry after := by
  simp only [requestValidatorExits, bind_eq_ok, pure_eq_ok, Prod.exists]
    at returned
  obtain ⟨-, -, -, -, -, -, requested, total, requesting, -, -, demand, -,
    totalExits, -, rfl⟩ := returned
  obtain ⟨-, -, -, length, -⟩ := requestEachExit_ok tiered.ordered requesting
  obtain ⟨entries, each⟩ := requestEachExit_eq tiered.ordered requesting
  have kept := requestEachExit_administrable tiered.ordered requesting
  refine .of_counted kept length entries fun index operator found => ?_
  exact ⟨_, _, (each index operator found).2⟩

theorem demandValidatorExits_administrable {count deposited : Nat}
    (returned : registry.demandValidatorExits count deposited = .ok after) :
    after.administrable = registry.administrable := by
  simp only [demandValidatorExits, bind_eq_ok] at returned
  obtain ⟨requested, -, room, -, returned⟩ := returned
  split at returned
  · simp only [bind_eq_ok, pure_eq_ok] at returned
    obtain ⟨demand, -, rfl⟩ := returned
    rfl
  · rw [pure_eq_ok] at returned
    rw [returned]

theorem demandValidatorExits_editedBy {count deposited : Nat}
    (returned : registry.demandValidatorExits count deposited = .ok after) :
    EditedBy senders registry after := by
  obtain ⟨operators, entries, stopped⟩ := demandValidatorExits_frame returned
  exact .of_edits (demandValidatorExits_administrable returned)
    (.of_same operators entries stopped)

theorem reportStoppedValidatorCounts_editedBy {counts : List Nat}
    {deposited : Nat} (tiered : registry.Tiered)
    (returned : registry.reportStoppedValidatorCounts counts deposited =
      .ok after) : EditedBy senders registry after := by
  obtain ⟨total, stopped, loop, rfl, -, kept, looping, -, rfl⟩ :=
    reportStoppedValidatorCounts_loop returned
  obtain ⟨-, -, -, length⟩ := stopEach_ok tiered.ordered looping
  obtain ⟨-, each⟩ := stopEach_eq
    (by rw [List.length_tail]; exact Nat.sub_le_of_le_add kept) looping
  refine .of_counted rfl length rfl fun index operator found => ?_
  obtain ⟨-, -, edited⟩ := each index operator (by rwa [Nat.zero_add])
  rw [Nat.zero_add] at edited
  exact ⟨_, _, edited⟩

end Counters

theorem Change.funded_eq {index : Nat} {action : Action}
    {holding later : Holding}
    (unpicked : ∀ allocations,
      action ≠ .pickNextValidatorsToDeposit allocations)
    (change : Change blockNumber index action holding later) :
    later.operator.funded = holding.operator.funded := by
  cases change with
  | renamed _ funded => exact funded
  | funded => exact absurd rfl (unpicked _)
  | _ => rfl

/-- Every operator is still there, and has the funded count it had. -/
def KeepsFundedCounts (registry after : OperatorsRegistry) : Prop :=
  ∀ (index : Nat) (operator : Operator),
    registry.operators[index]? = some operator →
    ∃ later, after.operators[index]? = some later ∧
      later.funded = operator.funded

theorem KeepsFundedCounts.refl (registry : OperatorsRegistry) :
    KeepsFundedCounts registry registry :=
  fun _ operator found => ⟨operator, found, rfl⟩

theorem KeepsFundedCounts.trans (first : KeepsFundedCounts registry middle)
    (second : KeepsFundedCounts middle after) :
    KeepsFundedCounts registry after := by
  intro index operator found
  obtain ⟨next, foundNext, same⟩ := first index operator found
  obtain ⟨later, foundLater, sameLater⟩ := second index next foundNext
  exact ⟨later, foundLater, sameLater.trans same⟩

/-- Of all actions only a pick funds. -/
theorem Action.apply_keepsFundedCounts {action : Action}
    {validators : List (Bytes × Bytes)} (tiered : registry.Tiered)
    (unpicked : ∀ allocations,
      action ≠ .pickNextValidatorsToDeposit allocations)
    (returned : action.apply registry blockNumber =
      .ok (after, validators)) : KeepsFundedCounts registry after := by
  intro index operator found
  have held : registry.holding index = some
      { operator := operator
        entries := registry.validatorKeys index
        stopped := registry.getStoppedValidatorsCount index } := by
    rw [holding, found]
    rfl
  obtain ⟨later, heldLater, changes⟩ :=
    (Action.apply_evolves tiered returned).changed index _ held
  have same : later.operator.funded = operator.funded := by
    clear heldLater
    induction changes with
    | refl => rfl
    | tail _ change induction =>
        exact (change.funded_eq unpicked).trans induction
  rw [holding, Option.map_eq_some_iff] at heldLater
  obtain ⟨operatorLater, foundLater, rfl⟩ := heldLater
  exact ⟨operatorLater, foundLater, same⟩

end OperatorsRegistry

end RiverProtocol
