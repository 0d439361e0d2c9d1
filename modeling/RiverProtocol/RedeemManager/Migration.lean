import Mathlib.Logic.Function.Basic
import RiverProtocol.RedeemManager.Geometry

/-!
# The migration of the redeem queue

`RedeemQueueV1` and `RedeemQueueV2` name one storage slot, so their entries
start at the same array base: an old entry takes four words, a new one five.
The queue is kept here as its words, next to the version slot that guards the
initializers.  A queue the present contract wrote is laid out in fives, and
the migration reads it in fours.
-/

namespace RiverProtocol

open Checked Outcome Lists

/-- How an initializer stops. -/
inductive InitializationError where
  | invalidInitialization (version expectedVersion : Nat)
  | panic (reason : Panic)
  deriving DecidableEq, Repr

/-- The version slot, the length slot of the queue and the words from the
base of its array on. -/
structure QueueStorage where
  version : Nat
  length : Nat
  words : Nat → Nat

/-- An address written into a word, whose upper 96 bits stay. -/
def writeAddress (word : Nat) (account : Address) : Nat :=
  word - word % 2 ^ 160 + account.val

namespace RedeemQueueV1

/-- `RedeemQueueV1.RedeemRequest` -/
structure RedeemRequest where
  amount : Nat
  maxRedeemableEth : Nat
  recipient : Address
  height : Nat
  deriving DecidableEq, Repr

def read (words : Nat → Nat) (index : Nat) : RedeemRequest :=
  { amount := words (4 * index)
    maxRedeemableEth := words (4 * index + 1)
    recipient := .ofNat (words (4 * index + 2))
    height := words (4 * index + 3) }

end RedeemQueueV1

namespace RedeemQueueV2

def read (words : Nat → Nat) (index : Nat) : RedeemRequest :=
  { amount := words (5 * index)
    maxRedeemableEth := words (5 * index + 1)
    recipient := .ofNat (words (5 * index + 2))
    height := words (5 * index + 3)
    initiator := .ofNat (words (5 * index + 4)) }

def write (words : Nat → Nat) (index : Nat) (request : RedeemRequest) :
    Nat → Nat :=
  fun position =>
    if position = 5 * index then request.amount
    else if position = 5 * index + 1 then request.maxRedeemableEth
    else if position = 5 * index + 2 then
      writeAddress (words position) request.recipient
    else if position = 5 * index + 3 then request.height
    else if position = 5 * index + 4 then
      writeAddress (words position) request.initiator
    else words position

/-- The three words `_saveRedeemRequest` writes. -/
def save (words : Nat → Nat) (index : Nat) (request : RedeemRequest) :
    Nat → Nat :=
  fun position =>
    if position = 5 * index then request.amount
    else if position = 5 * index + 1 then request.maxRedeemableEth
    else if position = 5 * index + 3 then request.height
    else words position

end RedeemQueueV2

namespace QueueStorage

/-- Storage nothing has written to. -/
def empty : QueueStorage :=
  { version := 0
    length := 0
    words := fun _ => 0 }

/-- `redeemRequests.push` -/
def push (storage : QueueStorage) (request : RedeemRequest) : QueueStorage :=
  { storage with
    length := storage.length + 1
    words := RedeemQueueV2.write storage.words storage.length request }

/-- `_saveRedeemRequest` -/
def save (storage : QueueStorage) (index : Nat) (request : RedeemRequest) :
    QueueStorage :=
  { storage with words := RedeemQueueV2.save storage.words index request }

/-- The modifier `init` before the body it guards. -/
def init (version : Nat) (storage : QueueStorage) :
    Except InitializationError QueueStorage := do
  require (version = storage.version)
    (.invalidInitialization version storage.version)
  return { storage with version := version + 1 }

/-- `initializeRedeemManagerV1`, less the address of River it stores. -/
def initializeRedeemManagerV1 (storage : QueueStorage) :
    Except InitializationError QueueStorage :=
  storage.init 0

/-- The loop of `_redeemQueueMigrationV1_2` over the entries in memory. -/
def migrateEach : List RedeemQueueV1.RedeemRequest → (index : Nat) →
    QueueStorage → Except InitializationError QueueStorage
  | [], _, storage => return storage
  | old :: rest, index, storage => do
    require (index < storage.length) (.panic .outOfBounds)
    migrateEach rest (index + 1) { storage with
      words := RedeemQueueV2.write storage.words index
        { amount := old.amount
          maxRedeemableEth := old.maxRedeemableEth
          recipient := old.recipient
          height := old.height
          initiator := old.recipient } }

/-- `_redeemQueueMigrationV1_2`: the old queue is copied to memory first. -/
def redeemQueueMigrationV1_2 (storage : QueueStorage) :
    Except InitializationError QueueStorage :=
  migrateEach
    ((List.range storage.length).map (RedeemQueueV1.read storage.words)) 0
    storage

def initializeRedeemManagerV1_2 (storage : QueueStorage) :
    Except InitializationError QueueStorage := do
  let storage ← storage.init 1
  storage.redeemQueueMigrationV1_2

end QueueStorage

/-- The word of an entry at its offset. -/
def RedeemRequest.word (request : RedeemRequest) : (offset : Nat) → Nat
  | 0 => request.amount
  | 1 => request.maxRedeemableEth
  | 2 => request.recipient.val
  | 3 => request.height
  | _ => request.initiator.val

@[simp] theorem Address.ofNat_val (account : Address) :
    Address.ofNat account.val = account :=
  Fin.ext (Nat.mod_eq_of_lt account.isLt)

@[simp] theorem ofNat_writeAddress (word : Nat) (account : Address) :
    Address.ofNat (writeAddress word account) = account := by
  have whole : word - word % 2 ^ 160 = 2 ^ 160 * (word / 2 ^ 160) := by
    have split := Nat.mod_add_div word (2 ^ 160)
    omega
  apply Fin.ext
  rw [Address.ofNat, writeAddress, whole]
  change (2 ^ 160 * (word / 2 ^ 160) + account.val) % 2 ^ 160 = account.val
  rw [Nat.mul_add_mod]
  exact Nat.mod_eq_of_lt account.isLt

theorem writeAddress_of_lt {word : Nat} (small : word < 2 ^ 160)
    (account : Address) : writeAddress word account = account.val := by
  rw [writeAddress, Nat.mod_eq_of_lt small, Nat.sub_self, Nat.zero_add]

namespace RedeemQueueV2

variable (words : Nat → Nat) (index : Nat) (request : RedeemRequest)

theorem read_write_same : read (write words index request) index = request := by
  simp [read, write]

theorem write_outside {position : Nat} (outside : position / 5 ≠ index) :
    write words index request position = words position := by
  simp only [write]
  rw [if_neg (by omega), if_neg (by omega), if_neg (by omega),
    if_neg (by omega), if_neg (by omega)]

theorem read_write_other {other : Nat} (different : other ≠ index) :
    read (write words index request) other = read words other := by
  have outside : ∀ offset < 5,
      write words index request (5 * other + offset) =
        words (5 * other + offset) :=
    fun offset small => write_outside words index request (by omega)
  have first := outside 0 (by decide)
  simp only [Nat.add_zero] at first
  simp only [read, first, outside 1 (by decide), outside 2 (by decide),
    outside 3 (by decide), outside 4 (by decide)]

theorem forall_offset {motive : Nat → Nat → Prop} {position : Nat}
    (inside : position / 5 = index)
    (each : ∀ offset < 5, motive (5 * index + offset) offset) :
    motive position (position % 5) := by
  have split : 5 * index + position % 5 = position := by omega
  have held := each (position % 5) (Nat.mod_lt _ (by decide))
  rw [split] at held
  exact held

/-- Where no address word has upper bits, an entry is written word for
word. -/
theorem write_inside {position : Nat} (inside : position / 5 = index)
    (recipientSmall : words (5 * index + 2) < 2 ^ 160)
    (initiatorSmall : words (5 * index + 4) < 2 ^ 160) :
    write words index request position = request.word (position % 5) := by
  refine forall_offset (motive := fun position offset =>
    write words index request position = request.word offset) index inside ?_
  intro offset small
  match offset, small with
  | 0, _ => simp [write, RedeemRequest.word]
  | 1, _ => simp [write, RedeemRequest.word]
  | 2, _ =>
    simp [write, RedeemRequest.word, writeAddress_of_lt recipientSmall]
  | 3, _ => simp [write, RedeemRequest.word]
  | 4, _ =>
    simp [write, RedeemRequest.word, writeAddress_of_lt initiatorSmall]

theorem save_outside {position : Nat} (outside : position / 5 ≠ index) :
    save words index request position = words position := by
  simp only [save]
  rw [if_neg (by omega), if_neg (by omega), if_neg (by omega)]

theorem save_inside {position : Nat} (inside : position / 5 = index)
    (recipientStored : words (5 * index + 2) = request.recipient.val)
    (initiatorStored : words (5 * index + 4) = request.initiator.val) :
    save words index request position = request.word (position % 5) := by
  refine forall_offset (motive := fun position offset =>
    save words index request position = request.word offset) index inside ?_
  intro offset small
  match offset, small with
  | 0, _ => simp [save, RedeemRequest.word]
  | 1, _ => simp [save, RedeemRequest.word]
  | 2, _ => simpa [save, RedeemRequest.word] using recipientStored
  | 3, _ => simp [save, RedeemRequest.word]
  | 4, _ => simpa [save, RedeemRequest.word] using initiatorStored

end RedeemQueueV2

/-- The word at a position of a queue laid out in fives. -/
def queueWord (queue : List RedeemRequest) (position : Nat) : Nat :=
  match queue[position / 5]? with
  | some request => request.word (position % 5)
  | none => 0

theorem queueWord_concat (queue : List RedeemRequest)
    (request : RedeemRequest) (position : Nat) :
    queueWord (queue ++ [request]) position =
      if position / 5 = queue.length then request.word (position % 5)
      else queueWord queue position := by
  unfold queueWord
  split
  · rename_i entry found
    rcases getElem?_concat_cases found with old | ⟨last, rfl⟩
    · have inside := (List.getElem?_eq_some_iff.mp old).1
      rw [if_neg (Nat.ne_of_lt inside), old]
    · rw [if_pos last]
  · rename_i missing
    have outside := List.getElem?_eq_none_iff.mp missing
    rw [List.length_append, List.length_singleton] at outside
    rw [if_neg (by omega), List.getElem?_eq_none_iff.mpr (by omega)]

theorem queueWord_set {queue : List RedeemRequest} {id : Nat}
    (inside : id < queue.length) (request : RedeemRequest)
    (position : Nat) :
    queueWord (queue.set id request) position =
      if position / 5 = id then request.word (position % 5)
      else queueWord queue position := by
  unfold queueWord
  by_cases same : position / 5 = id
  · rw [if_pos same, same, List.getElem?_set_self inside]
  · rw [if_neg same, List.getElem?_set_ne (Ne.symm same)]

/-- The storage holds exactly this queue, in fives, before the migration. -/
structure Represents (storage : QueueStorage) (queue : List RedeemRequest) :
    Prop where
  version : storage.version = 1
  length : storage.length = queue.length
  words : ∀ position, storage.words position = queueWord queue position

namespace Represents

variable {storage : QueueStorage} {queue : List RedeemRequest}

theorem word (represents : Represents storage queue) {id offset : Nat}
    {request : RedeemRequest} (found : queue[id]? = some request)
    (small : offset < 5) :
    storage.words (5 * id + offset) = request.word offset := by
  have entry : (5 * id + offset) / 5 = id := by omega
  have inside : (5 * id + offset) % 5 = offset := by omega
  rw [represents.words, queueWord, entry, inside, found]

theorem read (represents : Represents storage queue) {id : Nat}
    {request : RedeemRequest} (found : queue[id]? = some request) :
    RedeemQueueV2.read storage.words id = request := by
  have kept : ∀ offset < 5,
      storage.words (5 * id + offset) = request.word offset :=
    fun offset small => represents.word found small
  have first := kept 0 (by decide)
  simp only [Nat.add_zero] at first
  simp only [RedeemQueueV2.read, first, kept 1 (by decide),
    kept 2 (by decide), kept 3 (by decide), kept 4 (by decide),
    RedeemRequest.word, Address.ofNat_val]

theorem push (represents : Represents storage queue)
    (request : RedeemRequest) :
    Represents (storage.push request) (queue ++ [request]) where
  version := represents.version
  length := by
    rw [List.length_append, List.length_singleton, ← represents.length]
    rfl
  words := by
    intro position
    have free : ∀ offset < 5,
        storage.words (5 * storage.length + offset) = 0 := by
      intro offset small
      have entry : (5 * storage.length + offset) / 5 = queue.length := by
        rw [← represents.length]
        omega
      rw [represents.words, queueWord, entry,
        List.getElem?_eq_none_iff.mpr (Nat.le_refl _)]
    rw [queueWord_concat, ← represents.length]
    split
    · rename_i inside
      apply RedeemQueueV2.write_inside _ _ _ inside
      · rw [free 2 (by decide)]
        decide
      · rw [free 4 (by decide)]
        decide
    · rename_i outside
      rw [← represents.words]
      exact RedeemQueueV2.write_outside _ _ _ outside

theorem save (represents : Represents storage queue) {id : Nat}
    {stored request : RedeemRequest} (found : queue[id]? = some stored)
    (recipient : request.recipient = stored.recipient)
    (initiator : request.initiator = stored.initiator) :
    Represents (storage.save id request) (queue.set id request) where
  version := represents.version
  length := by
    rw [List.length_set]
    exact represents.length
  words := by
    intro position
    rw [queueWord_set (List.getElem?_eq_some_iff.mp found).1]
    split
    · rename_i inside
      apply RedeemQueueV2.save_inside _ _ _ inside
      · rw [represents.word found (by decide), recipient]
        rfl
      · rw [represents.word found (by decide), initiator]
        rfl
    · rename_i outside
      rw [← represents.words]
      exact RedeemQueueV2.save_outside _ _ _ outside

end Represents

namespace RedeemManager

/-- A redeem manager the present code's calls reach from
`initializeRedeemManagerV1`, with the storage of its queue.  A claim call may
be taken one claim at a time. -/
inductive Stored : RedeemManager → QueueStorage → Prop where
  | initializeRedeemManagerV1 {storage : QueueStorage} :
      QueueStorage.empty.initializeRedeemManagerV1 = .ok storage →
      Stored fresh storage
  | requestRedeem {E : Type} {river : RiverCalls E} {world worldAfter : E}
      {manager after : RedeemManager} {storage : QueueStorage}
      {request : RedeemRequest} {lsETHAmount id : Nat}
      {recipient initiator : Address} : Stored manager storage →
      requestRedeem river world manager lsETHAmount recipient initiator =
        .ok (after, worldAfter, id) →
      after.redeemQueue = manager.redeemQueue ++ [request] →
      Stored after (storage.push request)
  | reportWithdraw {manager after : RedeemManager} {storage : QueueStorage}
      {lsETHWithdrawable msgValue : Nat} : Stored manager storage →
      reportWithdraw manager lsETHWithdrawable msgValue = .ok after →
      Stored after storage
  | claimRedeemRequest {E : Type} {river : RiverCalls E} {call : ClaimCall}
      {world worldAfter : E} {manager after : RedeemManager}
      {storage : QueueStorage} {redeemRequestId withdrawalEventId : Nat} :
      Stored manager storage →
      (run : ClaimRun river call world manager redeemRequestId
        withdrawalEventId worldAfter after) →
      Stored after
        (storage.save redeemRequestId run.params.redeemRequest)
  | pullExceedingEth {manager after : RedeemManager}
      {storage : QueueStorage} {max sent : Nat} : Stored manager storage →
      pullExceedingEth manager max = .ok (after, sent) →
      Stored after storage

/-- Every run of the redeem manager writes some storage. -/
theorem Reachable.stored {manager : RedeemManager}
    (reachable : Reachable manager) : ∃ storage, Stored manager storage := by
  induction reachable with
  | refl =>
      exact ⟨{ QueueStorage.empty with version := 1 },
        .initializeRedeemManagerV1 rfl⟩
  | tail _ step induction =>
      refine step_preserves
        (motive := fun next => ∃ storage, Stored next storage) ?_ ?_ ?_ ?_
        induction step
      · rintro _ _ _ _ _ _ _ _ _ _ ⟨storage, stored⟩ returned
        obtain ⟨-, -, -, -, _, _, -, -, -, rfl⟩ := requestRedeem_eq_ok.mp returned
        exact ⟨_, stored.requestRedeem returned rfl⟩
      · rintro _ _ _ _ ⟨storage, stored⟩ returned
        exact ⟨_, stored.reportWithdraw returned⟩
      · rintro _ _ _ _ _ _ _ _ _ - - ⟨storage, stored⟩ run
        exact ⟨_, stored.claimRedeemRequest run⟩
      · rintro _ _ _ _ ⟨storage, stored⟩ returned
        exact ⟨_, stored.pullExceedingEth returned⟩

theorem Stored.represents {manager : RedeemManager} {storage : QueueStorage}
    (stored : Stored manager storage) :
    Represents storage manager.redeemQueue := by
  induction stored with
  | initializeRedeemManagerV1 returned =>
      simp only [QueueStorage.initializeRedeemManagerV1, QueueStorage.init,
        bind_eq_ok, require_eq_ok, pure_eq_ok] at returned
      obtain ⟨-, -, rfl⟩ := returned
      exact ⟨rfl, rfl, fun _ => rfl⟩
  | requestRedeem _ returned queue induction =>
      rw [queue]
      exact induction.push _
  | reportWithdraw _ returned induction =>
      obtain ⟨-, -, _, -, rfl⟩ := reportWithdraw_ok returned
      exact induction
  | @claimRedeemRequest _ _ _ _ _ _ _ storage id _ _ run induction =>
      rw [run.queue_set]
      -- a claim saves the three words the saved request changes
      have saved : Represents
          (storage.save id (savedRequest run.request run.params)) _ :=
        induction.save run.requestFound rfl rfl
      exact saved
  | pullExceedingEth _ returned induction =>
      obtain ⟨-, -, rfl⟩ := pullExceedingEth_ok returned
      exact induction

end RedeemManager

namespace QueueStorage

/-- The migrated entry of an old one. -/
def migrated (old : RedeemQueueV1.RedeemRequest) : RedeemRequest :=
  { amount := old.amount
    maxRedeemableEth := old.maxRedeemableEth
    recipient := old.recipient
    height := old.height
    initiator := old.recipient }

/-- The loop writes the entries in memory one after another. -/
theorem migrateEach_returns (olds : List RedeemQueueV1.RedeemRequest)
    (index : Nat) (storage : QueueStorage)
    (fits : index + olds.length ≤ storage.length) :
    ∃ after, migrateEach olds index storage = .ok after ∧
      after.version = storage.version ∧ after.length = storage.length ∧
      (∀ id, id < index → RedeemQueueV2.read after.words id =
        RedeemQueueV2.read storage.words id) ∧
      ∀ id old, olds[id]? = some old →
        RedeemQueueV2.read after.words (index + id) = migrated old := by
  induction olds generalizing index storage with
  | nil => exact ⟨storage, rfl, rfl, rfl, fun _ _ => rfl, by simp⟩
  | cons old olds induction =>
      rw [List.length_cons] at fits
      let written : QueueStorage := { storage with
        words := RedeemQueueV2.write storage.words index (migrated old) }
      obtain ⟨after, returned, version, length, before, entries⟩ :=
        induction (index + 1) written (by
          change index + 1 + olds.length ≤ storage.length
          omega)
      refine ⟨after, ?_, version, length, ?_, ?_⟩
      · rw [migrateEach, require_of (by omega)]
        exact returned
      · intro id below
        rw [before id (by omega)]
        exact RedeemQueueV2.read_write_other _ _ _ (by omega)
      · intro id other found
        cases id with
        | zero =>
            rw [List.getElem?_cons_zero, Option.some.injEq] at found
            subst found
            rw [Nat.add_zero, before index (Nat.lt_succ_self _)]
            exact RedeemQueueV2.read_write_same _ _ _
        | succ id =>
            have entry := entries id other (by simpa using found)
            rwa [Nat.add_assoc, Nat.add_comm 1 id] at entry

/-- At version 1 the migration returns, and every entry is what the old layout
reads. -/
theorem initializeRedeemManagerV1_2_returns {storage : QueueStorage}
    (version : storage.version = 1) :
    ∃ after, storage.initializeRedeemManagerV1_2 = .ok after ∧
      after.version = 2 ∧ after.length = storage.length ∧
      ∀ id < storage.length, RedeemQueueV2.read after.words id =
        migrated (RedeemQueueV1.read storage.words id) := by
  let started : QueueStorage := { storage with version := 2 }
  obtain ⟨after, returned, next, length, -, entries⟩ :=
    migrateEach_returns
      ((List.range storage.length).map (RedeemQueueV1.read storage.words)) 0
      started (by rw [List.length_map, List.length_range, Nat.zero_add])
  refine ⟨after, ?_, next, length, ?_⟩
  · rw [initializeRedeemManagerV1_2, init, require_of version.symm]
    exact returned
  · intro id inside
    have entry := entries id (RedeemQueueV1.read storage.words id) (by
      rw [List.getElem?_map, List.getElem?_range inside]
      rfl)
    rwa [Nat.zero_add] at entry

end QueueStorage

/-- Every request of the queue has kept its amount, its maximum, its recipient
and its height. -/
def Intact (queue : List RedeemRequest) (after : QueueStorage) : Prop :=
  ∀ id request, queue[id]? = some request →
    (RedeemQueueV2.read after.words id).amount = request.amount ∧
    (RedeemQueueV2.read after.words id).maxRedeemableEth =
      request.maxRedeemableEth ∧
    (RedeemQueueV2.read after.words id).recipient = request.recipient ∧
    (RedeemQueueV2.read after.words id).height = request.height

/-- Each request after the first repeats the words that lie four words for
each position into the queue. -/
def Coincides (queue : List RedeemRequest) : Prop :=
  ∀ id request, 0 < id → queue[id]? = some request →
    request.amount = queueWord queue (4 * id) ∧
    request.maxRedeemableEth = queueWord queue (4 * id + 1) ∧
    request.recipient = .ofNat (queueWord queue (4 * id + 2)) ∧
    request.height = queueWord queue (4 * id + 3)

theorem coincides_of_length_le_one {queue : List RedeemRequest}
    (short : queue.length ≤ 1) : Coincides queue := by
  intro id request positive found
  have inside := (List.getElem?_eq_some_iff.mp found).1
  omega

/-- The second amount would have to be the first initiator. -/
theorem Coincides.second {queue : List RedeemRequest}
    (coincides : Coincides queue) {first second : RedeemRequest}
    (firstFound : queue[0]? = some first)
    (secondFound : queue[1]? = some second) :
    second.amount = first.initiator.val := by
  obtain ⟨amount, -, -, -⟩ := coincides 1 second (by decide) secondFound
  rw [amount, queueWord]
  change (match queue[0]? with
    | some request => request.word 4
    | none => 0) = _
  rw [firstFound]
  rfl

theorem Represents.intact_iff {storage after : QueueStorage}
    {queue : List RedeemRequest} (represents : Represents storage queue)
    (entries : ∀ id < storage.length, RedeemQueueV2.read after.words id =
      QueueStorage.migrated (RedeemQueueV1.read storage.words id)) :
    Intact queue after ↔ Coincides queue := by
  have read : ∀ id request, queue[id]? = some request →
      RedeemQueueV2.read after.words id =
        QueueStorage.migrated (RedeemQueueV1.read (queueWord queue) id) := by
    intro id request found
    have words : storage.words = queueWord queue :=
      funext represents.words
    rw [entries id, words]
    rw [represents.length]
    exact (List.getElem?_eq_some_iff.mp found).1
  constructor
  · intro intact id request _ found
    obtain ⟨amount, maximum, recipient, height⟩ := intact id request found
    rw [read id request found] at amount maximum recipient height
    exact ⟨amount.symm, maximum.symm, recipient.symm, height.symm⟩
  · intro coincides id request found
    rw [read id request found]
    cases id with
    | zero =>
        -- both layouts read the first four words of the first request
        have kept : ∀ offset < 4,
            queueWord queue offset = request.word offset := by
          intro offset small
          have first : offset / 5 = 0 := by omega
          have inside : offset % 5 = offset := by omega
          rw [queueWord, first, inside, found]
        refine ⟨kept 0 (by decide), kept 1 (by decide), ?_,
          kept 3 (by decide)⟩
        change Address.ofNat (queueWord queue 2) = request.recipient
        rw [kept 2 (by decide)]
        exact Address.ofNat_val _
    | succ id =>
        obtain ⟨amount, maximum, recipient, height⟩ :=
          coincides (id + 1) request (Nat.succ_pos id) found
        exact ⟨amount.symm, maximum.symm, recipient.symm, height.symm⟩

namespace RedeemManager

/-- The migration can be called once in every state the present code reaches,
and is harmless exactly when the words of the queue coincide. -/
theorem migration_harmless_iff {manager : RedeemManager}
    {storage : QueueStorage} (stored : Stored manager storage) :
    ∃ after, storage.initializeRedeemManagerV1_2 = .ok after ∧
      (Intact manager.redeemQueue after ↔
        Coincides manager.redeemQueue) := by
  have represents := stored.represents
  obtain ⟨after, returned, -, -, entries⟩ :=
    QueueStorage.initializeRedeemManagerV1_2_returns represents.version
  exact ⟨after, returned, represents.intact_iff entries⟩

def initialized : QueueStorage :=
  { QueueStorage.empty with version := 1 }

theorem initialized_stored : Stored fresh initialized :=
  .initializeRedeemManagerV1 rfl

/-- A request of this amount by Alice for herself, at one wei for one
LsETH. -/
def requestOf (height amount : Nat) : RedeemRequest :=
  { amount := amount
    maxRedeemableEth := amount
    recipient := alice
    height := height
    initiator := alice }

theorem requestOf_stored {manager after : RedeemManager}
    {storage : QueueStorage} {height amount id : Nat}
    (stored : Stored manager storage)
    (returned : requestRedeem acceptingCalls () manager amount alice alice =
      .ok (after, (), id))
    (queue : after.redeemQueue =
      manager.redeemQueue ++ [requestOf height amount]) :
    Stored after (storage.push (requestOf height amount)) :=
  stored.requestRedeem returned queue

theorem migration_harmless_iff_one_request : ∃ manager after,
    Stored manager (initialized.push (requestOf 0 10)) ∧
      manager.redeemQueue = [requestOf 0 10] ∧
      (initialized.push (requestOf 0 10)).initializeRedeemManagerV1_2 =
        .ok after ∧
      Intact manager.redeemQueue after := by
  have first : returns (requestRedeem acceptingCalls () fresh 10 alice alice)
      (fun (manager, _, _) => manager.redeemQueue = [requestOf 0 10]) =
      true := by decide
  obtain ⟨⟨manager, _, id⟩, returned, queue⟩ := returns_iff.mp first
  replace queue := of_decide_eq_true queue
  have stored := requestOf_stored initialized_stored returned queue
  obtain ⟨after, migrated, harmless⟩ := migration_harmless_iff stored
  refine ⟨manager, after, stored, queue, migrated, harmless.mpr ?_⟩
  apply coincides_of_length_le_one
  rw [queue]
  decide

/-- With two requests in the queue the second one's amount becomes the first
one's initiator. -/
theorem migration_shifts_second_request : ∃ manager after,
    Stored manager ((initialized.push (requestOf 0 10)).push
      (requestOf 10 20)) ∧
      manager.redeemQueue = [requestOf 0 10, requestOf 10 20] ∧
      ((initialized.push (requestOf 0 10)).push
        (requestOf 10 20)).initializeRedeemManagerV1_2 = .ok after ∧
      (RedeemQueueV2.read after.words 1).amount = alice.val ∧
      ¬ Intact manager.redeemQueue after := by
  have both : returns (do
      let (manager, _, _) ← requestRedeem acceptingCalls () fresh 10 alice
        alice
      let (after, _, _) ← requestRedeem acceptingCalls () manager 20 alice
        alice
      return (manager, after))
      (fun (manager, after) => manager.redeemQueue = [requestOf 0 10] ∧
        after.redeemQueue = [requestOf 0 10, requestOf 10 20]) = true := by
    decide
  have migration : returns ((initialized.push (requestOf 0 10)).push
      (requestOf 10 20)).initializeRedeemManagerV1_2
      (fun after => (RedeemQueueV2.read after.words 1).amount = alice.val) =
      true := by decide
  obtain ⟨⟨manager, final⟩, run, queues⟩ := returns_iff.mp both
  simp only [bind_eq_ok, pure_eq_ok, Prod.mk.injEq, Prod.exists] at run
  obtain ⟨_, _, _, first, _, _, _, second, rfl, rfl⟩ := run
  obtain ⟨one, two⟩ := of_decide_eq_true queues
  obtain ⟨after, migrated, amount⟩ := returns_iff.mp migration
  replace amount := of_decide_eq_true amount
  have stored := requestOf_stored
    (requestOf_stored initialized_stored first one) second (by
      rw [one, two]
      rfl)
  refine ⟨_, after, stored, two, migrated, amount, ?_⟩
  intro intact
  obtain ⟨kept, -, -, -⟩ := intact 1 (requestOf 10 20) (by rw [two]; rfl)
  rw [amount] at kept
  exact absurd kept (by decide)

end RedeemManager

end RiverProtocol
