import RiverProtocol.RedeemManager.Migration

/-!
# Migrating a queue of the first version

The migration on the storage of the whole contract: a word at every slot, the
length of the queue at its slot and its entries from the hash of that slot on.
A queue laid out in fours is read back in fives, and nothing else changes but
the version.
-/

namespace RiverProtocol

open Checked Outcome

/-- The storage of a contract. -/
abbrev Slots := Nat → Nat

/-- `VERSION_SLOT`, `REDEEM_QUEUE_ID_SLOT` and the hash of the latter, at which
the entries begin. -/
structure QueueLayout where
  versionSlot : Nat
  queueSlot : Nat
  base : Nat

namespace QueueLayout

/-- The slot of a word of the entries. -/
def element (layout : QueueLayout) (position : Nat) : Nat :=
  (layout.base + position) % wordLimit

/-- The words of the entries. -/
def words (layout : QueueLayout) (slots : Slots) (position : Nat) : Nat :=
  slots (layout.element position)

def store (layout : QueueLayout) (slots : Slots) (position value : Nat) :
    Slots :=
  Function.update slots (layout.element position) value

def storeAddress (layout : QueueLayout) (slots : Slots) (position : Nat)
    (account : Address) : Slots :=
  layout.store slots position
    (writeAddress (layout.words slots position) account)

/-- The five words that `newQueue[index]` is assigned. -/
def storeRequest (layout : QueueLayout) (slots : Slots) (index : Nat)
    (request : RedeemRequest) : Slots :=
  let slots := layout.store slots (5 * index) request.amount
  let slots := layout.store slots (5 * index + 1) request.maxRedeemableEth
  let slots := layout.storeAddress slots (5 * index + 2) request.recipient
  let slots := layout.store slots (5 * index + 3) request.height
  layout.storeAddress slots (5 * index + 4) request.initiator

/-- The loop of `_redeemQueueMigrationV1_2` over the entries in memory. -/
def migrateEach (layout : QueueLayout) :
    List RedeemQueueV1.RedeemRequest → (index : Nat) → Slots →
      Except InitializationError Slots
  | [], _, slots => return slots
  | old :: rest, index, slots => do
    require (index < slots layout.queueSlot) (.panic .outOfBounds)
    layout.migrateEach rest (index + 1) (layout.storeRequest slots index
      { amount := old.amount
        maxRedeemableEth := old.maxRedeemableEth
        recipient := old.recipient
        height := old.height
        initiator := old.recipient })

/-- `_redeemQueueMigrationV1_2`: the old queue is copied to memory first. -/
def redeemQueueMigrationV1_2 (layout : QueueLayout) (slots : Slots) :
    Except InitializationError Slots :=
  let oldQueue := (List.range (slots layout.queueSlot)).map
    (RedeemQueueV1.read (layout.words slots))
  layout.migrateEach oldQueue 0 slots

def initializeRedeemManagerV1_2 (layout : QueueLayout) (slots : Slots) :
    Except InitializationError Slots := do
  require (1 = slots layout.versionSlot)
    (.invalidInitialization 1 (slots layout.versionSlot))
  layout.redeemQueueMigrationV1_2 (Function.update slots layout.versionSlot 2)

/-- The entries of a queue of this length, in fives, lie at slots of their
own. -/
structure Disjoint (layout : QueueLayout) (length : Nat) : Prop where
  fits : 5 * length ≤ wordLimit
  named : layout.versionSlot ≠ layout.queueSlot
  version : ∀ position < 5 * length,
    layout.element position ≠ layout.versionSlot
  queue : ∀ position < 5 * length,
    layout.element position ≠ layout.queueSlot

variable {layout : QueueLayout} {slots : Slots} {length : Nat}

theorem element_injective {position other : Nat}
    (small : position < wordLimit) (otherSmall : other < wordLimit)
    (same : layout.element position = layout.element other) :
    position = other := by
  unfold element wordLimit at *
  omega

theorem Disjoint.of_le {shorter : Nat} (disjoint : layout.Disjoint length)
    (le : shorter ≤ length) : layout.Disjoint shorter where
  fits := (Nat.mul_le_mul_left 5 le).trans disjoint.fits
  named := disjoint.named
  version position small :=
    disjoint.version position (small.trans_le (Nat.mul_le_mul_left 5 le))
  queue position small :=
    disjoint.queue position (small.trans_le (Nat.mul_le_mul_left 5 le))

theorem words_store {position other : Nat} (small : position < wordLimit)
    (otherSmall : other < wordLimit) (value : Nat) :
    layout.words (layout.store slots position value) other =
      if other = position then value else layout.words slots other := by
  unfold words store
  split
  · rename_i same
    rw [same, Function.update_self]
  · rename_i different
    apply Function.update_of_ne
    intro same
    exact different (element_injective otherSmall small same)

theorem words_storeRequest {index position : Nat}
    (fits : 5 * length ≤ wordLimit) (inside : index < length)
    (small : position < 5 * length) (request : RedeemRequest) :
    layout.words (layout.storeRequest slots index request) position =
      RedeemQueueV2.write (layout.words slots) index request position := by
  simp (disch := omega) only [storeRequest, storeAddress, words_store,
    RedeemQueueV2.write]
  grind

/-- Slots away from the entries of the queue. -/
def Outside (layout : QueueLayout) (length slot : Nat) : Prop :=
  ∀ position < 5 * length, slot ≠ layout.element position

theorem storeRequest_outside {index slot : Nat} (inside : index < length)
    (outside : layout.Outside length slot) (request : RedeemRequest) :
    layout.storeRequest slots index request slot = slots slot := by
  have away : ∀ offset < 5, slot ≠ layout.element (5 * index + offset) :=
    fun offset small => outside _ (by omega)
  have first := away 0 (by decide)
  rw [Nat.add_zero] at first
  simp only [storeRequest, storeAddress, store]
  rw [Function.update_of_ne (away 4 (by decide)),
    Function.update_of_ne (away 3 (by decide)),
    Function.update_of_ne (away 2 (by decide)),
    Function.update_of_ne (away 1 (by decide)), Function.update_of_ne first]

/-- The slots hold the storage of the queue, up to a number of entries. -/
structure Holds (layout : QueueLayout) (slots : Slots)
    (storage : QueueStorage) : Prop where
  version : slots layout.versionSlot = storage.version
  length : slots layout.queueSlot = storage.length
  words : ∀ position < 5 * storage.length,
    layout.words slots position = storage.words position

variable {storage : QueueStorage}

/-- The storage of the queue that the slots hold. -/
def storageOf (layout : QueueLayout) (slots : Slots) : QueueStorage where
  version := slots layout.versionSlot
  length := slots layout.queueSlot
  words := layout.words slots

theorem holds_storageOf (layout : QueueLayout) (slots : Slots) :
    layout.Holds slots (layout.storageOf slots) :=
  ⟨rfl, rfl, fun _ _ => rfl⟩

theorem Holds.storeRequest (holds : layout.Holds slots storage)
    (disjoint : layout.Disjoint storage.length) {index : Nat}
    (inside : index < storage.length) (request : RedeemRequest) :
    layout.Holds (layout.storeRequest slots index request)
      { storage with
        words := RedeemQueueV2.write storage.words index request } where
  version := (storeRequest_outside inside
    (fun position small => (disjoint.version position small).symm)
    request).trans holds.version
  length := (storeRequest_outside inside
    (fun position small => (disjoint.queue position small).symm)
    request).trans holds.length
  words position small := by
    rw [words_storeRequest disjoint.fits inside small]
    simp only [RedeemQueueV2.write, holds.words position small]

/-- The loop on the slots is the loop on the storage of the queue. -/
theorem migrateEach_holds (olds : List RedeemQueueV1.RedeemRequest)
    {index : Nat} {after : QueueStorage} (holds : layout.Holds slots storage)
    (disjoint : layout.Disjoint storage.length)
    (returned : QueueStorage.migrateEach olds index storage = .ok after) :
    ∃ final, layout.migrateEach olds index slots = .ok final ∧
      layout.Holds final after ∧
      ∀ slot, layout.Outside storage.length slot →
        final slot = slots slot := by
  induction olds generalizing index slots storage with
  | nil =>
      rw [QueueStorage.migrateEach, pure_eq_ok] at returned
      exact ⟨slots, rfl, returned ▸ holds, fun _ _ => rfl⟩
  | cons old olds induction =>
      simp only [QueueStorage.migrateEach, bind_eq_ok, require_eq_ok]
        at returned
      obtain ⟨-, inside, returned⟩ := returned
      obtain ⟨final, run, held, kept⟩ :=
        induction (holds.storeRequest disjoint inside _) disjoint returned
      refine ⟨final, ?_, held, ?_⟩
      · rw [migrateEach, require_of (holds.length ▸ inside), ok_bind]
        exact run
      · intro slot outside
        rw [kept slot outside]
        exact storeRequest_outside inside outside _

/-- An entry of the old layout is read from words that a queue in fives has as
well. -/
theorem read_congr {words others : Nat → Nat} {id : Nat}
    (inside : id < length)
    (same : ∀ position < 5 * length, words position = others position) :
    RedeemQueueV1.read words id = RedeemQueueV1.read others id := by
  simp only [RedeemQueueV1.read]
  rw [same (4 * id) (by omega), same (4 * id + 1) (by omega),
    same (4 * id + 2) (by omega), same (4 * id + 3) (by omega)]

theorem readV2_congr {words others : Nat → Nat} {id : Nat}
    (inside : id < length)
    (same : ∀ position < 5 * length, words position = others position) :
    RedeemQueueV2.read words id = RedeemQueueV2.read others id := by
  simp only [RedeemQueueV2.read]
  rw [same (5 * id) (by omega), same (5 * id + 1) (by omega),
    same (5 * id + 2) (by omega), same (5 * id + 3) (by omega),
    same (5 * id + 4) (by omega)]

theorem Holds.setVersion (holds : layout.Holds slots storage)
    (disjoint : layout.Disjoint storage.length) (version : Nat) :
    layout.Holds (Function.update slots layout.versionSlot version)
      { storage with version := version } where
  version := Function.update_self _ _ _
  length := (Function.update_of_ne disjoint.named.symm _ _).trans
    holds.length
  words position small :=
    (Function.update_of_ne (disjoint.version position small) _ _).trans
      (holds.words position small)

/-- At version 1 the initializer returns, and its slots hold what it leaves on
the storage of the queue. -/
theorem initializeRedeemManagerV1_2_holds {after : QueueStorage}
    (holds : layout.Holds slots storage)
    (disjoint : layout.Disjoint storage.length)
    (returned : storage.initializeRedeemManagerV1_2 = .ok after) :
    ∃ final, layout.initializeRedeemManagerV1_2 slots = .ok final ∧
      layout.Holds final after ∧
      ∀ slot, slot ≠ layout.versionSlot →
        layout.Outside storage.length slot → final slot = slots slot := by
  simp only [QueueStorage.initializeRedeemManagerV1_2, QueueStorage.init,
    bind_eq_ok, require_eq_ok, pure_eq_ok] at returned
  obtain ⟨started, ⟨-, version, rfl⟩, returned⟩ := returned
  have begun := holds.setVersion disjoint 2
  obtain ⟨final, run, held, kept⟩ :=
    migrateEach_holds _ begun disjoint returned
  refine ⟨final, ?_, held, ?_⟩
  · rw [initializeRedeemManagerV1_2,
      require_of (version.trans holds.version.symm), ok_bind,
      redeemQueueMigrationV1_2, begun.length]
    have read : (List.range storage.length).map (RedeemQueueV1.read
        (layout.words (Function.update slots layout.versionSlot 2))) =
          (List.range storage.length).map
            (RedeemQueueV1.read storage.words) := by
      apply List.map_congr_left
      intro id inside
      exact read_congr (List.mem_range.mp inside) begun.words
    rw [read]
    exact run
  · intro slot other outside
    rw [kept slot outside, Function.update_of_ne other]

/-- At version 1 the slots hold this queue in fours. -/
structure Genuine (layout : QueueLayout) (slots : Slots)
    (queue : List RedeemQueueV1.RedeemRequest) : Prop where
  version : slots layout.versionSlot = 1
  length : slots layout.queueSlot = queue.length
  entries : ∀ id old, queue[id]? = some old →
    RedeemQueueV1.read (layout.words slots) id = old

/-- `redeemRequests.push` of the first version. -/
def pushV1 (layout : QueueLayout) (slots : Slots)
    (request : RedeemQueueV1.RedeemRequest) : Slots :=
  let index := slots layout.queueSlot
  let slots := Function.update slots layout.queueSlot (index + 1)
  let slots := layout.store slots (4 * index) request.amount
  let slots := layout.store slots (4 * index + 1) request.maxRedeemableEth
  let slots := layout.storeAddress slots (4 * index + 2) request.recipient
  layout.store slots (4 * index + 3) request.height

theorem words_update {slot position : Nat}
    (other : layout.element position ≠ slot) (value : Nat) :
    layout.words (Function.update slots slot value) position =
      layout.words slots position :=
  Function.update_of_ne other _ _

theorem store_named {slot position : Nat}
    (other : layout.element position ≠ slot) (value : Nat) :
    layout.store slots position value slot = slots slot :=
  Function.update_of_ne other.symm _ _

/-- A queue the first version pushed to is laid out in fours. -/
theorem Genuine.push {queue : List RedeemQueueV1.RedeemRequest}
    (genuine : layout.Genuine slots queue)
    (disjoint : layout.Disjoint (queue.length + 1))
    (request : RedeemQueueV1.RedeemRequest) :
    layout.Genuine (layout.pushV1 slots request) (queue ++ [request]) where
  version := by
    have away := disjoint.version
    simp (disch := first | omega | exact away _ (by omega)) only [pushV1,
      storeAddress, store_named, genuine.length]
    rw [Function.update_of_ne disjoint.named]
    exact genuine.version
  length := by
    have away := disjoint.queue
    simp (disch := first | omega | exact away _ (by omega)) only [pushV1,
      storeAddress, store_named, genuine.length]
    rw [Function.update_self, List.length_append, List.length_singleton]
  entries := by
    have fits := disjoint.fits
    have away := disjoint.queue
    intro id old found
    rcases Lists.getElem?_concat_cases found with earlier | ⟨rfl, rfl⟩
    · have inside := (List.getElem?_eq_some_iff.mp earlier).1
      rw [← genuine.entries id old earlier]
      simp (disch := first | omega | exact away _ (by omega)) only
        [RedeemQueueV1.read, pushV1, storeAddress, words_store,
          genuine.length, words_update]
      grind
    · simp (disch := first | omega | exact away _ (by omega)) only
        [RedeemQueueV1.read, pushV1, storeAddress, words_store,
          genuine.length, words_update]
      simp

/-- The queue is read back in fives with the same entries in the same order,
each with its recipient as initiator, and only the version and the slots of
the entries are written. -/
theorem genuine_queue_migrates {queue : List RedeemQueueV1.RedeemRequest}
    (genuine : layout.Genuine slots queue)
    (disjoint : layout.Disjoint queue.length) :
    ∃ after, layout.initializeRedeemManagerV1_2 slots = .ok after ∧
      after layout.queueSlot = queue.length ∧
      (List.range queue.length).map
          (RedeemQueueV2.read (layout.words after)) =
        queue.map QueueStorage.migrated ∧
      ∀ slot, slot ≠ layout.versionSlot → layout.Outside queue.length slot →
        after slot = slots slot := by
  have counted : (layout.storageOf slots).length = queue.length :=
    genuine.length
  have first : (layout.storageOf slots).version = 1 := genuine.version
  obtain ⟨after, returned, -, length, entries⟩ :=
    QueueStorage.initializeRedeemManagerV1_2_returns first
  obtain ⟨final, run, held, kept⟩ := initializeRedeemManagerV1_2_holds
    (layout.holds_storageOf slots) (counted ▸ disjoint) returned
  rw [counted] at length entries kept
  refine ⟨final, run, held.length.trans length, ?_, kept⟩
  apply List.ext_getElem?
  intro id
  rw [List.getElem?_map, List.getElem?_map]
  by_cases inside : id < queue.length
  · have found := List.getElem?_eq_getElem inside
    rw [List.getElem?_range inside, found, Option.map_some, Option.map_some,
      readV2_congr (length.symm ▸ inside) held.words, entries id inside]
    exact congrArg (some ∘ QueueStorage.migrated)
      (genuine.entries id _ found)
  · rw [List.getElem?_eq_none (Nat.not_lt.mp inside),
      List.getElem?_eq_none (by
        rw [List.length_range]
        exact Nat.not_lt.mp inside)]
    rfl

section Sample

def sampleLayout : QueueLayout :=
  { versionSlot := 0, queueSlot := 1, base := 100 }

/-- After `initializeRedeemManagerV1`. -/
def sampleSlots : Slots := fun slot => if slot = 0 then 1 else 0

def oldRequest (height amount : Nat) : RedeemQueueV1.RedeemRequest :=
  { amount := amount
    maxRedeemableEth := amount + 1
    recipient := .ofNat 7
    height := height }

def sampleQueue : List RedeemQueueV1.RedeemRequest :=
  [oldRequest 0 10, oldRequest 10 20]

theorem sampleSlots_genuine : sampleLayout.Genuine
    (sampleLayout.pushV1 (sampleLayout.pushV1 sampleSlots (oldRequest 0 10))
      (oldRequest 10 20)) sampleQueue := by
  have empty : sampleLayout.Genuine sampleSlots [] := by
    refine ⟨rfl, rfl, ?_⟩
    intro id old found
    rw [List.getElem?_nil] at found
    exact nomatch found
  have disjoint : sampleLayout.Disjoint 2 := by
    constructor <;> decide
  exact (empty.push (disjoint.of_le (by decide)) _).push disjoint _

theorem genuine_queue_migrates_sample :
    ∃ after, sampleLayout.initializeRedeemManagerV1_2
        (sampleLayout.pushV1
          (sampleLayout.pushV1 sampleSlots (oldRequest 0 10))
          (oldRequest 10 20)) = .ok after ∧
      (List.range 2).map (RedeemQueueV2.read (sampleLayout.words after)) =
        [QueueStorage.migrated (oldRequest 0 10),
          QueueStorage.migrated (oldRequest 10 20)] ∧
      after 110 = 0 := by
  obtain ⟨after, returned, -, entries, kept⟩ :=
    genuine_queue_migrates sampleSlots_genuine (by constructor <;> decide)
  refine ⟨after, returned, entries, ?_⟩
  rw [kept 110 (by decide) (by unfold Outside; decide)]
  decide

end Sample

end QueueLayout

end RiverProtocol
