import RiverProtocol.Access.Initializable
import RiverProtocol.OperatorsRegistry.Keys

/-!
# The operators of the first version

`initOperatorsRegistryV1_1` copies the operators of the first version, whose
counts are whole words, into operators with counts of 32 bits.  The keys stay
where they are.
-/

namespace RiverProtocol

open Checked Outcome

/-- `OperatorsV1.Operator` -/
structure OperatorV1 where
  active : Bool
  name : String
  operator : Address
  limit : Nat
  funded : Nat
  keys : Nat
  stopped : Nat
  latestKeysEditBlockNumber : Nat
  deriving DecidableEq, Repr

/-- The order of the counts of an operator, as the first version kept it. -/
structure OperatorV1.Ordered (old : OperatorV1) : Prop where
  stopped_le : old.stopped ≤ old.funded
  funded_le : old.funded ≤ old.limit
  limit_le : old.limit ≤ old.keys

/-- What the setters of the first version let an operator be. -/
structure OperatorV1.Named (old : OperatorV1) : Prop where
  operator : old.operator ≠ .zero
  name : old.name ≠ ""

/-- The operator that `_migrateOperators_V1_1` stores. -/
def OperatorV1.migrated (old : OperatorV1) : Operator :=
  { limit := toUint32 old.limit
    funded := toUint32 old.funded
    requestedExits := 0
    keys := toUint32 old.keys
    latestKeysEditBlockNumber := toUint64 old.latestKeysEditBlockNumber
    active := old.active
    name := old.name
    operator := old.operator }

namespace OperatorsRegistry

/-- The storage of the registry with the list of the first version and the
address of River. -/
structure Storage where
  registry : OperatorsRegistry
  river : Address
  operatorsV1 : List OperatorV1

namespace Storage

/-- Storage nothing is written to. -/
def empty : Storage :=
  { registry := fresh .zero
    river := .zero
    operatorsV1 := [] }

/-- `OperatorsV2.push` -/
def push (registry : OperatorsRegistry) (newOperator : Operator) :
    Except Error OperatorsRegistry := do
  notZeroAddress newOperator.operator
  notEmptyString newOperator.name
  return { registry with operators := registry.operators ++ [newOperator] }

/-- `_migrateOperators_V1_1` from an operator on. -/
def migrateOperators : List OperatorV1 → OperatorsRegistry →
    Except Error OperatorsRegistry
  | [], registry => return registry
  | old :: rest, registry => do
    let registry ← push registry old.migrated
    migrateOperators rest registry

def initOperatorsRegistryV1 (storage : Versioned Storage)
    (admin river : Address) : Except Failure (Versioned Storage) :=
  storage.init 0 fun storage => do
    notZeroAddress admin
    notZeroAddress river
    return { storage with
      registry := { storage.registry with
        administrable := { storage.registry.administrable with
          admin := admin } }
      river := river }

def initOperatorsRegistryV1_1 (storage : Versioned Storage) :
    Except Failure (Versioned Storage) :=
  storage.init 1 fun storage => do
    let registry ← migrateOperators storage.operatorsV1 storage.registry
    return { storage with registry := registry }

end Storage

variable {registry after : OperatorsRegistry} {olds : List OperatorV1}

open Storage in
theorem migrateOperators_eq_ok :
    migrateOperators olds registry = .ok after ↔
      (∀ old ∈ olds, old.Named) ∧ after = { registry with
        operators := registry.operators ++ olds.map OperatorV1.migrated } := by
  induction olds generalizing registry with
  | nil =>
      simp only [migrateOperators, pure_eq_ok, List.map_nil, List.append_nil]
      exact ⟨fun same => ⟨List.forall_mem_nil _, same.symm⟩,
        fun same => same.2.symm⟩
  | cons old rest induction =>
      simp only [migrateOperators, push, notZeroAddress, notEmptyString,
        bind_eq_ok, require_eq_ok, pure_eq_ok, List.forall_mem_cons]
      constructor
      · rintro ⟨next, ⟨-, operator, -, name, rfl⟩, migrating⟩
        obtain ⟨named, rfl⟩ := induction.mp migrating
        refine ⟨⟨⟨operator, name⟩, named⟩, ?_⟩
        simp only [List.map_cons, List.append_assoc, List.singleton_append]
      · rintro ⟨⟨⟨operator, name⟩, named⟩, rfl⟩
        refine ⟨_, ⟨(), operator, (), name, rfl⟩, ?_⟩
        refine induction.mpr ⟨named, ?_⟩
        simp only [List.map_cons, List.append_assoc, List.singleton_append]

/-- A registry only the first version wrote to: its operators respect the
order of their counts, and nothing of the second version is there. -/
structure FirstVersion (storage : Storage) : Prop where
  ordered : ∀ old ∈ storage.operatorsV1, old.Ordered
  named : ∀ old ∈ storage.operatorsV1, old.Named
  fits : ∀ old ∈ storage.operatorsV1, old.keys < uint32Limit
  operators : storage.registry.operators = []
  stopped : storage.registry.stoppedValidators = []

/-- The migration of an operator whose keys fit loses none of its counts. -/
theorem migrated_counts {old : OperatorV1} (ordered : old.Ordered)
    (fits : old.keys < uint32Limit) :
    old.migrated.limit = old.limit ∧ old.migrated.funded = old.funded ∧
      old.migrated.keys = old.keys := by
  have limit := ordered.limit_le.trans_lt fits
  have funded := ordered.funded_le.trans_lt limit
  exact ⟨toUint32_of_lt limit, toUint32_of_lt funded, toUint32_of_lt fits⟩

variable {storage : Storage}

/-- The registry after the migration. -/
def Storage.migrated (storage : Storage) : OperatorsRegistry :=
  { storage.registry with
    operators := storage.operatorsV1.map OperatorV1.migrated }

theorem FirstVersion.initializes {versioned : Versioned Storage}
    (first : FirstVersion versioned.state) (version : versioned.version = 1) :
    Storage.initOperatorsRegistryV1_1 versioned =
      .ok ⟨2, { versioned.state with
        registry := versioned.state.migrated }⟩ := by
  refine Versioned.init_eq_ok.mpr ⟨version, _, ?_, rfl⟩
  rw [bind_eq_ok]
  refine ⟨_, migrateOperators_eq_ok.mpr ⟨first.named, rfl⟩, ?_⟩
  rw [first.operators, List.nil_append]
  rfl

theorem FirstVersion.tiered (first : FirstVersion storage) :
    storage.migrated.Tiered where
  holdings index holding held := by
    rw [OperatorsRegistry.holding, Option.map_eq_some_iff] at held
    obtain ⟨operator, found, rfl⟩ := held
    obtain ⟨old, member, rfl⟩ :=
      List.mem_map.mp (List.mem_of_getElem? found)
    have ordered := first.ordered old member
    obtain ⟨limit, funded, keys⟩ :=
      migrated_counts ordered (first.fits old member)
    have unstopped : storage.migrated.getStoppedValidatorsCount index = 0 := by
      rw [getStoppedValidatorsCount, Storage.migrated]
      dsimp only
      rw [first.stopped]
      rfl
    refine ⟨keys ▸ first.fits old member, ?_, ?_, Nat.zero_le _, ?_⟩
    · rw [limit, keys]
      exact ordered.limit_le
    · rw [limit, funded]
      exact ordered.funded_le
    · rw [unstopped]
      exact Nat.zero_le _
  stopped_length := by
    rw [Storage.migrated, first.stopped]
    exact Nat.zero_le _
  stopped_sum total counts same := by
    rw [Storage.migrated, first.stopped] at same
    cases same

/-- What a registry after the upgrade has of an operator of the first
version, whose keys were at `entries`. -/
structure Upgraded (old : OperatorV1) (entries : Nat → Bytes)
    (registry : OperatorsRegistry) (index : Nat) (operator : Operator) :
    Prop where
  found : registry.operators[index]? = some operator
  limit_le : operator.limit ≤ operator.keys
  funded_le : operator.funded ≤ operator.limit
  requested_le : operator.requestedExits ≤ operator.funded
  stopped_le :
    registry.getStoppedValidatorsCount index ≤ operator.requestedExits
  funded : old.funded ≤ operator.funded
  kept : ∀ position < old.funded,
    registry.validatorKeys index position = entries position

/-- The upgrade of a registry the first version left goes through, once, and
copies every operator with its counts.  Every later run keeps the counts in
order and the keys the first version had funded. -/
theorem upgrade_keeps_validators {versioned : Versioned Storage}
    (first : FirstVersion versioned.state) (version : versioned.version = 1) :
    ∃ after, Storage.initOperatorsRegistryV1_1 versioned = .ok after ∧
      Storage.initOperatorsRegistryV1_1 after =
        .error (.invalidInitialization 1 2) ∧
      after.state.registry.operators =
        versioned.state.operatorsV1.map (fun old =>
          { limit := old.limit
            funded := old.funded
            requestedExits := 0
            keys := old.keys
            latestKeysEditBlockNumber := toUint64 old.latestKeysEditBlockNumber
            active := old.active
            name := old.name
            operator := old.operator }) ∧
      ∀ reached, Relation.ReflTransGen Step after.state.registry reached →
        ∀ (index : Nat) (old : OperatorV1),
          versioned.state.operatorsV1[index]? = some old →
          ∃ operator, Upgraded old
            (versioned.state.registry.validatorKeys index) reached index
            operator := by
  refine ⟨_, first.initializes version, rfl, ?_, ?_⟩
  · refine List.map_congr_left fun old member => ?_
    obtain ⟨limit, funded, keys⟩ :=
      migrated_counts (first.ordered old member) (first.fits old member)
    simp only [OperatorV1.migrated] at limit funded keys ⊢
    rw [limit, funded, keys]
  · intro reached run index old present
    have tiered := first.tiered
    have member := List.mem_of_getElem? present
    have counts :=
      migrated_counts (first.ordered old member) (first.fits old member)
    have held : versioned.state.migrated.holding index = some
        { operator := old.migrated
          entries := versioned.state.registry.validatorKeys index
          stopped :=
            versioned.state.migrated.getStoppedValidatorsCount index } := by
      rw [holding, Storage.migrated, List.getElem?_map, present]
      rfl
    obtain ⟨later, heldLater, funded, kept⟩ :=
      keepsFunded_of_run tiered run index _ held
    obtain ⟨-, tieredLater⟩ := grows_of_run tiered run
    rw [holding, Option.map_eq_some_iff] at heldLater
    obtain ⟨operator, found, rfl⟩ := heldLater
    obtain ⟨-, limit, fundedLimit, requested, stopped⟩ :=
      tieredLater.of_found found
    dsimp only at funded kept
    rw [counts.2.1] at funded kept
    exact ⟨operator, found, limit, fundedLimit, requested, stopped, funded,
      kept⟩

section Sample

/-- Two operators of the first version; the first one has funded a key. -/
def sampleOperatorsV1 : List OperatorV1 :=
  [⟨true, "first", .ofNat 20, 2, 1, 3, 0, 7⟩,
    ⟨false, "second", .ofNat 21, 0, 0, 40, 0, 8⟩]

/-- The registry is initialized, and its operators are there. -/
def sampleFirstVersion (initialized : Versioned Storage) :
    Versioned Storage :=
  { initialized with
    state := { initialized.state with operatorsV1 := sampleOperatorsV1 } }

theorem sampleFirstVersion_facts {initialized : Versioned Storage}
    (returned : Storage.initOperatorsRegistryV1 ⟨0, .empty⟩ (.ofNat 1)
      (.ofNat 2) = .ok initialized) :
    (sampleFirstVersion initialized).version = 1 ∧
      FirstVersion (sampleFirstVersion initialized).state := by
  obtain ⟨-, state, initializing, rfl⟩ := Versioned.init_eq_ok.mp returned
  simp only [bind_eq_ok, pure_eq_ok] at initializing
  obtain ⟨-, -, -, -, rfl⟩ := initializing
  refine ⟨rfl, ?_, ?_, ?_, rfl, rfl⟩
  · exact List.forall_mem_cons.mpr ⟨⟨by decide, by decide, by decide⟩,
      List.forall_mem_singleton.mpr ⟨by decide, by decide, by decide⟩⟩
  · exact List.forall_mem_cons.mpr ⟨⟨by decide, by decide⟩,
      List.forall_mem_singleton.mpr ⟨by decide, by decide⟩⟩
  · exact List.forall_mem_cons.mpr ⟨by decide,
      List.forall_mem_singleton.mpr (by decide)⟩

/-- The first operator keeps its funded key when the administrator turns it
off after the upgrade. -/
theorem upgrade_keeps_validators_sample : ∃ initialized after reached operator,
    Storage.initOperatorsRegistryV1 ⟨0, .empty⟩ (.ofNat 1) (.ofNat 2) =
        .ok initialized ∧
      Storage.initOperatorsRegistryV1_1 (sampleFirstVersion initialized) =
        .ok after ∧
      after.state.registry.setOperatorStatus (.ofNat 1) 0 false =
        .ok reached ∧
      reached.operators[0]? = some operator ∧ operator.active = false ∧
      1 ≤ operator.funded := by
  have checked : returns (Storage.initOperatorsRegistryV1 ⟨0, .empty⟩
      (.ofNat 1) (.ofNat 2)) (fun initialized =>
        returns (Storage.initOperatorsRegistryV1_1
          (sampleFirstVersion initialized)) fun after =>
            returns (after.state.registry.setOperatorStatus (.ofNat 1) 0
              false) fun reached =>
                reached.operators[0]?.any fun operator =>
                  operator.active = false) = true := by
    decide +kernel
  obtain ⟨initialized, initializing, facts⟩ := returns_iff.mp checked
  obtain ⟨after, upgrading, facts⟩ := returns_iff.mp facts
  obtain ⟨reached, setting, facts⟩ := returns_iff.mp facts
  obtain ⟨operator, found, inactive⟩ := (Option.any_eq_true _ _).mp facts
  obtain ⟨version, first⟩ := sampleFirstVersion_facts initializing
  obtain ⟨upgraded, returned, -, -, runs⟩ :=
    upgrade_keeps_validators first version
  obtain rfl := Except.ok.inj (returned.symm.trans upgrading)
  have step : Step upgraded.state.registry reached := by
    refine ⟨.manage (.ofNat 1) (.setOperatorStatus 0 false), 0, [], ?_⟩
    simp only [Action.apply, Call.apply, setting]
    rfl
  obtain ⟨later, kept⟩ := runs reached (.single step) 0 _ rfl
  obtain rfl := Option.some.inj (kept.found.symm.trans found)
  exact ⟨initialized, upgraded, reached, later, initializing, upgrading,
    setting, found, of_decide_eq_true inactive, kept.funded⟩

end Sample

end OperatorsRegistry

end RiverProtocol
