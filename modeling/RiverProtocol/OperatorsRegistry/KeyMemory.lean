import RiverProtocol.Lib.Memory
import RiverProtocol.OperatorsRegistry.Removal

/-!
# Keys in memory

`LibBytes.slice` as its assembly works on memory, and the reading of keys by
it.  The abstract slice of a list of bytes is what `ValidatorKeys` is modelled
with; here the assembly refines it: the new array holds the slice, and no
array allocated before is touched.

Addresses do not wrap: memory that reaches the end of a word cannot be paid
for.
-/

namespace RiverProtocol

open Checked Outcome

open OperatorsRegistry (sliceBytes_eq_ok split_eq_ok)

namespace LibBytes

/-- The reverts of the library. -/
inductive Error where
  | panic (reason : Panic)
  | sliceOverflow
  | sliceOutOfBounds
  deriving DecidableEq, Repr

instance : HasPanic Error := ⟨.panic⟩

/-- Where the free memory pointer is kept. -/
def freePointer : Nat := 0x40

/-- The first address the compiler allocates. -/
def heapStart : Nat := 0x80

/-- `and(add(address, 31), not(31))` -/
def roundUp (address : Nat) : Nat := (address + 31) / 32 * 32

/-- The assembly of `slice`: its first word is overwritten by the length at
the end. -/
def copySlice (memory : Memory) (bytes start length : Nat) : Memory × Nat :=
  let tempBytes := memory.load freePointer
  if length = 0 then
    ((memory.store tempBytes 0).store freePointer (tempBytes + 32), tempBytes)
  else
    let lengthmod := length % 32
    let skipped := if lengthmod = 0 then 32 else lengthmod
    let mc := tempBytes + skipped
    let (copied, mc) :=
      memory.copyUntil mc (bytes + skipped + start) (mc + length)
    ((copied.store tempBytes length).store freePointer (roundUp mc), tempBytes)

/-- `slice`, with the address of the new array. -/
def slice (memory : Memory) (bytes start length : Nat) :
    Except Error (Memory × Nat) := do
  -- the sum is unchecked in the source
  require (length ≤ (length + 31) % wordLimit) .sliceOverflow
  let stop ← uadd start length
  require (stop ≤ memory.load bytes) .sliceOutOfBounds
  return copySlice memory bytes start length

/-- An array of bytes in the allocated part of memory. -/
structure Allocated (memory : Memory) (address : Nat) : Prop where
  above : heapStart ≤ address
  below : address + 32 + memory.load address ≤ memory.load freePointer

/-- What was allocated is unchanged but for the written positions. -/
structure ExtendsBut (written : Nat → Prop) (before after : Memory) :
    Prop where
  grows : before.load freePointer ≤ after.load freePointer
  kept : ∀ position, heapStart ≤ position →
    position < before.load freePointer → ¬ written position →
    after position = before position

/-- What was allocated is unchanged. -/
abbrev Extends : Memory → Memory → Prop := ExtendsBut fun _ => False

/-- Nothing of the array is written. -/
def Apart (written : Nat → Prop) (memory : Memory) (address : Nat) : Prop :=
  ∀ position, address ≤ position →
    position < address + 32 + memory.load address → ¬ written position

variable {memory before middle after : Memory} {address bytes start length :
  Nat} {written more : Nat → Prop}

theorem ExtendsBut.refl (memory : Memory) : ExtendsBut written memory memory :=
  ⟨le_rfl, fun _ _ _ _ => rfl⟩

theorem ExtendsBut.trans (first : ExtendsBut written before middle)
    (second : ExtendsBut written middle after) :
    ExtendsBut written before after where
  grows := first.grows.trans second.grows
  kept position above below outside := by
    rw [second.kept position above (below.trans_le first.grows) outside,
      first.kept position above below outside]

theorem ExtendsBut.mono (extended : ExtendsBut written before after)
    (wider : ∀ position, written position → more position) :
    ExtendsBut more before after where
  grows := extended.grows
  kept position above below outside :=
    extended.kept position above below fun held =>
      outside (wider position held)

/-- What leaves everything alone leaves the rest alone. -/
theorem ExtendsBut.of_extends (extended : Extends before after) :
    ExtendsBut written before after :=
  extended.mono fun _ never => never.elim

theorem ExtendsBut.load_eq (extended : ExtendsBut written before after)
    (above : heapStart ≤ address)
    (below : address + 32 ≤ before.load freePointer)
    (outside : ∀ position, address ≤ position → position < address + 32 →
      ¬ written position) : after.load address = before.load address := by
  apply Memory.load_congr
  intro position first last
  exact extended.kept position (by omega) (by omega)
    (outside position first last)

theorem Allocated.load_eq (allocated : Allocated before address)
    (further : ExtendsBut written before after)
    (apart : Apart written before address) :
    after.load address = before.load address := by
  have below := allocated.below
  exact further.load_eq allocated.above (by omega)
    fun position first last => apart position first (by omega)

theorem Allocated.extend (allocated : Allocated before address)
    (further : ExtendsBut written before after)
    (apart : Apart written before address) : Allocated after address where
  above := allocated.above
  below := by
    rw [allocated.load_eq further apart]
    exact allocated.below.trans further.grows

theorem Allocated.bytesAt_eq (allocated : Allocated before address)
    (further : ExtendsBut written before after)
    (apart : Apart written before address) :
    after.bytesAt address = before.bytesAt address := by
  have above := allocated.above
  have below := allocated.below
  apply Memory.bytesAt_congr
  intro position first last
  exact further.kept position (by omega) (by omega)
    (apart position first last)

theorem apart_nothing : Apart (fun _ => False) memory address :=
  fun _ _ _ => not_false

/-- The positions of a word. -/
def Word (word position : Nat) : Prop :=
  word ≤ position ∧ position < word + 32

theorem store_extends {word value : Nat} (above : heapStart ≤ word) :
    ExtendsBut (Word word) memory (memory.store word value) := by
  have pointer : freePointer + 32 ≤ heapStart := by decide
  refine ⟨?_, ?_⟩
  · rw [Memory.load_store_outside (.inl (by omega))]
  · intro position _ _ outside
    unfold Word at outside
    exact Memory.store_outside (by omega)

/-- Copy a string of storage to memory, as the compiler does. -/
def allocate (memory : Memory) (content : Bytes) : Memory × Nat :=
  let address := memory.load freePointer
  let copied : Memory := fun position =>
    if position < address + 32 then memory position
    else (content[position - (address + 32)]?).getD (memory position)
  ((copied.store address content.length).store freePointer
    (roundUp (address + 32 + content.length)), address)

/-- A new array at the free memory pointer, with this content. -/
structure Appends (before after : Memory) (content : Bytes) : Prop where
  extended : Extends before after
  allocated : Allocated after (before.load freePointer)
  bytesAt_eq : after.bytesAt (before.load freePointer) = content
  bounded : after.load freePointer ≤
    before.load freePointer + content.length + 64

theorem le_roundUp (address : Nat) : address ≤ roundUp address := by
  unfold roundUp
  omega

theorem roundUp_le (address : Nat) : roundUp address ≤ address + 31 := by
  unfold roundUp
  omega

/-- Both cases end by writing the length and moving the free memory
pointer. -/
theorem appends_of_written {copied : Memory} {content : Bytes} {next : Nat}
    (heap : heapStart ≤ memory.load freePointer)
    (fits : next < wordLimit)
    (room : memory.load freePointer + 32 + content.length ≤ next)
    (bounded : next ≤ memory.load freePointer + content.length + 64)
    (written : ∀ index (inside : index < content.length),
      copied (memory.load freePointer + 32 + index) = content[index])
    (kept : ∀ position < memory.load freePointer,
      copied position = memory position) :
    Appends memory ((copied.store (memory.load freePointer)
      content.length).store freePointer next) content := by
  generalize free : memory.load freePointer = tempBytes at *
  have pointer : freePointer + 32 ≤ heapStart := by decide
  have moved : Memory.load ((copied.store tempBytes content.length).store
      freePointer next) freePointer = next := Memory.load_store fits
  have length : Memory.load ((copied.store tempBytes content.length).store
      freePointer next) tempBytes = content.length := by
    rw [Memory.load_store_outside (.inr (by omega)),
      Memory.load_store (by omega)]
  refine ⟨⟨?_, ?_⟩, ⟨?_, ?_⟩, ?_, ?_⟩
  · rw [moved]
    omega
  · intro position above below _
    rw [Memory.store_outside (.inr (by omega)),
      Memory.store_outside (.inl (by omega)), kept position (by omega)]
  · rw [free]
    exact heap
  · rw [free, length, moved]
    exact room
  · rw [free]
    apply List.ext_getElem
    · rw [Memory.length_bytesAt, length]
    · intro index first inside
      rw [Memory.getElem_bytesAt,
        Memory.store_outside (.inr (by omega)),
        Memory.store_outside (.inr (by omega)), written index inside]
  · rw [free, moved]
    exact bounded

/-- The loop copies the slice behind the word of its length. -/
theorem copySlice_appends (allocated : Allocated memory bytes)
    (inside : start + length ≤ memory.load bytes)
    (fits : memory.load freePointer + length + 64 < wordLimit) :
    (copySlice memory bytes start length).2 = memory.load freePointer ∧
      Appends memory (copySlice memory bytes start length).1
        (((memory.bytesAt bytes).drop start).take length) := by
  have above := allocated.above
  have below := allocated.below
  have heap : heapStart ≤ memory.load freePointer := by omega
  rw [Memory.take_drop_bytesAt inside]
  generalize expected : ((List.range length).map fun index =>
    memory (bytes + 32 + (start + index))) = content
  have sized : content.length = length := by
    rw [← expected, List.length_map, List.length_range]
  have entries : ∀ index (inside : index < content.length),
      content[index] = memory (bytes + 32 + (start + index)) := by
    intro index inside
    simp only [← expected, List.getElem_map, List.getElem_range]
  clear expected
  subst sized
  unfold copySlice
  dsimp only
  split
  · rename_i none
    refine ⟨rfl, ?_⟩
    have appended := @appends_of_written memory memory content
      (memory.load freePointer + 32) heap (by omega) (by omega) (by omega)
      (fun index inside => by omega) fun _ _ => rfl
    rwa [none] at appended
  · rename_i some
    refine ⟨rfl, ?_⟩
    generalize offset : (if content.length % 32 = 0 then 32
      else content.length % 32) = skipped
    have short : 0 < skipped ∧ skipped ≤ 32 := by
      split at offset <;> omega
    have whole : Memory.copyEnd (memory.load freePointer + skipped)
        (memory.load freePointer + skipped + content.length) =
          memory.load freePointer + 32 + content.length := by
      unfold Memory.copyEnd
      split at offset <;> omega
    have spec := @Memory.copyUntil_spec memory
      (memory.load freePointer + skipped) (bytes + skipped + start)
      (memory.load freePointer + skipped + content.length)
      (memory.load freePointer)
    rw [whole] at spec
    obtain ⟨stopped, copied, kept⟩ := spec (by omega) (by omega)
    have next := le_roundUp (memory.load freePointer + 32 + content.length)
    have near := roundUp_le (memory.load freePointer + 32 + content.length)
    rw [stopped]
    refine appends_of_written heap (by omega) (by omega) (by omega) ?_
      fun position below => kept position (.inl (by omega))
    intro index inside
    have moved : bytes + skipped + start + (memory.load freePointer + 32 +
        index - (memory.load freePointer + skipped)) =
          bytes + 32 + (start + index) := by omega
    rw [copied _ (by omega) (by omega), moved, entries index inside]

theorem allocate_appends {content : Bytes}
    (heap : heapStart ≤ memory.load freePointer)
    (fits : memory.load freePointer + content.length + 64 < wordLimit) :
    ∃ after, allocate memory content = (after, memory.load freePointer) ∧
      Appends memory after content := by
  have next := le_roundUp (memory.load freePointer + 32 + content.length)
  have near := roundUp_le (memory.load freePointer + 32 + content.length)
  refine ⟨_, rfl, appends_of_written heap (by omega) next (by omega) ?_
    fun position below => if_pos (by omega)⟩
  intro index inside
  have place : memory.load freePointer + 32 + index -
      (memory.load freePointer + 32) = index := by omega
  rw [if_neg (by omega), place, List.getElem?_eq_getElem inside]
  rfl

theorem slice_eq_ok {result : Memory × Nat}
    (fits : memory.load bytes + 31 < wordLimit) :
    slice memory bytes start length = .ok result ↔
      start + length ≤ memory.load bytes ∧
        copySlice memory bytes start length = result := by
  simp only [slice, bind_eq_ok, require_eq_ok, uadd_eq_ok, pure_eq_ok]
  constructor
  · rintro ⟨-, -, _, ⟨-, rfl⟩, -, inside, same⟩
    exact ⟨inside, same⟩
  · rintro ⟨inside, same⟩
    have unwrapped : (length + 31) % wordLimit = length + 31 :=
      Nat.mod_eq_of_lt (by omega)
    exact ⟨(), by rw [unwrapped]; exact Nat.le_add_right _ _, _,
      ⟨by omega, rfl⟩, (), inside, same⟩

/-- The assembly refines the slice of a list: where that exists, the new array
holds it, and no memory allocated before changes. -/
theorem slice_refines {part : Bytes} (allocated : Allocated memory bytes)
    (fits : 2 * memory.load freePointer + 64 < wordLimit)
    (sliced : sliceBytes (memory.bytesAt bytes) start length = .ok part) :
    ∃ after, slice memory bytes start length =
        .ok (after, memory.load freePointer) ∧ Appends memory after part := by
  have below := allocated.below
  obtain ⟨inside, rfl⟩ := sliceBytes_eq_ok.mp sliced
  rw [Memory.length_bytesAt] at inside
  obtain ⟨address, appends⟩ :=
    copySlice_appends allocated inside (by omega)
  refine ⟨_, (slice_eq_ok (by omega)).mpr ⟨inside, ?_⟩, appends⟩
  rw [← address]

theorem slice_fails {failure : RiverProtocol.Error}
    (fits : memory.load bytes + 31 < wordLimit)
    (failed : sliceBytes (memory.bytesAt bytes) start length =
      .error failure) :
    ∃ raised, slice memory bytes start length = .error raised := by
  cases returned : slice memory bytes start length with
  | error raised => exact ⟨raised, rfl⟩
  | ok result =>
      have inside := ((slice_eq_ok fits).mp returned).1
      have possible : sliceBytes (memory.bytesAt bytes) start length =
          .ok _ := sliceBytes_eq_ok.mpr ⟨by rwa [Memory.length_bytesAt], rfl⟩
      rw [possible] at failed
      exact nomatch failed

theorem length_le_of_slice {entry part : Bytes}
    (sliced : sliceBytes entry start length = .ok part) :
    part.length ≤ length := by
  obtain ⟨-, rfl⟩ := sliceBytes_eq_ok.mp sliced
  exact List.length_take_le _ _

/-- A new array whose address is written to a word of the heap. -/
structure Placed (word : Nat) (before after : Memory) (content : Bytes) :
    Prop where
  extended : ExtendsBut (Word word) before after
  stored : after.load word = before.load freePointer
  allocated : Allocated after (before.load freePointer)
  bytesAt_eq : after.bytesAt (before.load freePointer) = content
  bounded : after.load freePointer ≤
    before.load freePointer + content.length + 64

theorem apart_word {word : Nat} (behind : word + 32 ≤ address) :
    Apart (Word word) memory address := by
  rintro position first _ ⟨-, last⟩
  omega

theorem Appends.placed {word : Nat} {content : Bytes}
    (appends : Appends before middle content) (above : heapStart ≤ word)
    (below : word + 32 ≤ before.load freePointer)
    (fits : before.load freePointer < wordLimit) :
    Placed word before (middle.store word (before.load freePointer))
      content := by
  have writes := @store_extends middle word (before.load freePointer) above
  have behind := @apart_word middle _ word below
  refine ⟨appends.extended.of_extends.trans writes, Memory.load_store fits,
    appends.allocated.extend writes behind, ?_, ?_⟩
  · rw [appends.allocated.bytesAt_eq writes behind, appends.bytesAt_eq]
  · have pointer : freePointer + 32 ≤ heapStart := by decide
    rw [Memory.load_store_outside (.inl (by omega))]
    exact appends.bounded

/-- Where the compiler keeps an empty array, the initial value of addresses. -/
def zeroSlot : Nat := 0x60

/-- Write the same word this many times. -/
def storeAll (memory : Memory) (address value : Nat) : Nat → Memory
  | 0 => memory
  | count + 1 =>
    (storeAll memory address value count).store (address + 32 * count) value

/-- `new bytes[](amount)`, with the address of the array. -/
def newArray (memory : Memory) (amount : Nat) : Memory × Nat :=
  let address := memory.load freePointer
  let filled :=
    storeAll (memory.store address amount) (address + 32) zeroSlot amount
  (filled.store freePointer (address + 32 + 32 * amount), address)

theorem storeAll_outside {value count position : Nat}
    (outside : position < address ∨ address + 32 * count ≤ position) :
    storeAll memory address value count position = memory position := by
  induction count with
  | zero => rfl
  | succ count induction =>
      rw [storeAll, Memory.store_outside (by omega), induction (by omega)]

theorem newArray_extends {amount : Nat}
    (heap : heapStart ≤ memory.load freePointer)
    (fits : memory.load freePointer + 32 + 32 * amount < wordLimit) :
    ∃ after, newArray memory amount = (after, memory.load freePointer) ∧
      Extends memory after ∧
      after.load (memory.load freePointer) = amount ∧
      after.load freePointer =
        memory.load freePointer + 32 + 32 * amount := by
  have pointer : freePointer + 32 ≤ heapStart := by decide
  refine ⟨_, rfl, ⟨?_, ?_⟩, ?_, Memory.load_store fits⟩
  · rw [Memory.load_store fits]
    omega
  · intro position above below _
    rw [Memory.store_outside (.inr (by omega)),
      storeAll_outside (.inl (by omega)),
      Memory.store_outside (.inl (by omega))]
  · have kept : Memory.load (storeAll (memory.store (memory.load freePointer)
        amount) (memory.load freePointer + 32) zeroSlot amount)
        (memory.load freePointer) = Memory.load (memory.store
          (memory.load freePointer) amount) (memory.load freePointer) :=
      Memory.load_congr fun position above below =>
        storeAll_outside (.inl (by omega))
    rw [Memory.load_store_outside (.inr (by omega)), kept,
      Memory.load_store (by omega)]

end LibBytes

namespace ValidatorKeys

open LibBytes

/-- One iteration of the loop of `getKeys`, from the entry in storage to the
two arrays of addresses. -/
def fillKey (entry : Bytes) (publicKeys signatures idx : Nat)
    (memory : Memory) : Except LibBytes.Error Memory := do
  let (memory, rawCredentials) := allocate memory entry
  let (memory, publicKey) ← slice memory rawCredentials 0 publicKeyLength
  let memory := memory.store (publicKeys + 32 + 32 * idx) publicKey
  let (memory, signature) ←
    slice memory rawCredentials publicKeyLength signatureLength
  return memory.store (signatures + 32 + 32 * idx) signature

/-- The loop of `getKeys` from `idx` on. -/
def fillKeys (entries : Nat → Bytes) (startIdx publicKeys signatures : Nat) :
    (idx amount : Nat) → Memory → Except LibBytes.Error Memory
  | _, 0, memory => return memory
  | idx, amount + 1, memory => do
    let memory ← fillKey (entries (idx + startIdx)) publicKeys signatures idx
      memory
    fillKeys entries startIdx publicKeys signatures (idx + 1) amount memory

/-- `getKeys` in memory, with the addresses of its two arrays. -/
def readKeys (entries : Nat → Bytes) (startIdx amount : Nat)
    (memory : Memory) : Except LibBytes.Error (Memory × Nat × Nat) := do
  let (memory, publicKeys) := newArray memory amount
  let (memory, signatures) := newArray memory amount
  let memory ← fillKeys entries startIdx publicKeys signatures 0 amount memory
  return (memory, publicKeys, signatures)

/-- The positions of these elements of both arrays. -/
def Slots (publicKeys signatures idx amount position : Nat) : Prop :=
  (publicKeys + 32 + 32 * idx ≤ position ∧
      position < publicKeys + 32 + 32 * (idx + amount)) ∨
    (signatures + 32 + 32 * idx ≤ position ∧
      position < signatures + 32 + 32 * (idx + amount))

/-- Two arrays of this length, one behind the other, in the allocated part of
memory. -/
structure Arrays (memory : Memory) (publicKeys signatures length : Nat) :
    Prop where
  above : heapStart ≤ publicKeys
  apart : publicKeys + 32 + 32 * length ≤ signatures
  below : signatures + 32 + 32 * length ≤ memory.load freePointer

/-- The elements of both arrays from `idx` on. -/
def slotsAt (memory : Memory) (publicKeys signatures idx amount : Nat) :
    List (Nat × Nat) :=
  (List.range amount).map fun index =>
    (memory.load (publicKeys + 32 + 32 * (idx + index)),
      memory.load (signatures + 32 + 32 * (idx + index)))

/-- The key pairs at these addresses. -/
def pairsAt (memory : Memory) (addresses : List (Nat × Nat)) :
    List (Bytes × Bytes) :=
  addresses.map fun address =>
    (memory.bytesAt address.1, memory.bytesAt address.2)

variable {entries : Nat → Bytes} {memory before after : Memory}
  {startIdx amount size idx publicKeys signatures : Nat}
  {addresses : List (Nat × Nat)} {keys : List (Bytes × Bytes)}
  {publicKey signature : Bytes}

theorem slotsAt_succ :
    slotsAt memory publicKeys signatures idx (amount + 1) =
      (memory.load (publicKeys + 32 + 32 * idx),
        memory.load (signatures + 32 + 32 * idx)) ::
        slotsAt memory publicKeys signatures (idx + 1) amount := by
  simp only [slotsAt, List.range_succ_eq_map, List.map_cons, List.map_map,
    Nat.add_zero, Function.comp_def, Nat.succ_eq_add_one,
    Nat.add_right_comm idx, Nat.add_assoc]

theorem slotsAt_append :
    slotsAt memory publicKeys signatures idx (amount + 1) =
      slotsAt memory publicKeys signatures idx 1 ++
        slotsAt memory publicKeys signatures (idx + 1) amount := by
  rw [slotsAt_succ, slotsAt_succ]
  rfl

/-- The arrays of these pairs were allocated from `floor` on. -/
def PairsAbove (floor : Nat) (memory : Memory)
    (addresses : List (Nat × Nat)) : Prop :=
  ∀ address ∈ addresses,
    (Allocated memory address.1 ∧ floor ≤ address.1) ∧
      Allocated memory address.2 ∧ floor ≤ address.2

theorem apart_slots {address : Nat}
    (apart : publicKeys + 32 + 32 * (idx + amount) ≤ signatures)
    (behind : signatures + 32 + 32 * (idx + amount) ≤ address) :
    Apart (Slots publicKeys signatures idx amount) memory address := by
  intro position first _ held
  unfold Slots at held
  omega

theorem Arrays.extend {length : Nat} {written : Nat → Prop}
    (arrays : Arrays before publicKeys signatures length)
    (further : ExtendsBut written before after) :
    Arrays after publicKeys signatures length :=
  ⟨arrays.above, arrays.apart, arrays.below.trans further.grows⟩

/-- What the arrays of one entry take at most beside its length. -/
def sparePerKey : Nat := 336

/-- An iteration leaves the two parts of the entry in new arrays, and their
addresses in the elements. -/
theorem fillKey_refines {entry : Bytes}
    (arrays : Arrays memory publicKeys signatures (idx + (amount + 1)))
    (room : 2 * (memory.load freePointer + entry.length + sparePerKey) + 64 <
      wordLimit)
    (split : ValidatorKeys.split entry = .ok (publicKey, signature)) :
    ∃ after, fillKey entry publicKeys signatures idx memory = .ok after ∧
      ExtendsBut (Slots publicKeys signatures idx 1) memory after ∧
      after.load freePointer ≤
        memory.load freePointer + entry.length + sparePerKey ∧
      PairsAbove (memory.load freePointer) after
        (slotsAt after publicKeys signatures idx 1) ∧
      pairsAt after (slotsAt after publicKeys signatures idx 1) =
        [(publicKey, signature)] := by
  obtain ⟨keyPart, signaturePart⟩ : sliceBytes entry 0 publicKeyLength =
      .ok publicKey ∧ sliceBytes entry publicKeyLength signatureLength =
        .ok signature := by
    simp only [ValidatorKeys.split, bind_eq_ok, pure_eq_ok, Prod.mk.injEq]
      at split
    obtain ⟨_, keyPart, _, signaturePart, rfl, rfl⟩ := split
    exact ⟨keyPart, signaturePart⟩
  obtain ⟨above, apart, below⟩ := arrays
  have spare : sparePerKey = 336 := rfl
  have keySize : publicKey.length ≤ 48 := length_le_of_slice keyPart
  have signatureSize : signature.length ≤ 96 :=
    length_le_of_slice signaturePart
  obtain ⟨first, allocating, loaded⟩ :=
    @allocate_appends memory entry (by omega) (by omega)
  have loadedBound := loaded.bounded
  have loadedGrows := loaded.extended.grows
  rw [← loaded.bytesAt_eq] at keyPart signaturePart
  obtain ⟨sliced, keyReturned, keyAppends⟩ :=
    slice_refines loaded.allocated (by omega) keyPart
  have keyPlaced := @Appends.placed first sliced
    (publicKeys + 32 + 32 * idx) publicKey keyAppends (by omega) (by omega)
    (by omega)
  generalize second_eq : sliced.store (publicKeys + 32 + 32 * idx)
    (first.load freePointer) = second at keyPlaced
  have keyBound := keyPlaced.bounded
  have keyGrows := keyPlaced.extended.grows
  have behind := @apart_word first (memory.load freePointer)
    (publicKeys + 32 + 32 * idx) (by omega)
  rw [← loaded.allocated.bytesAt_eq keyPlaced.extended behind]
    at signaturePart
  obtain ⟨slicedAgain, signatureReturned, signatureAppends⟩ := slice_refines
    (loaded.allocated.extend keyPlaced.extended behind) (by omega)
    signaturePart
  have signaturePlaced := @Appends.placed second slicedAgain
    (signatures + 32 + 32 * idx) signature signatureAppends (by omega)
    (by omega) (by omega)
  generalize after_eq : slicedAgain.store (signatures + 32 + 32 * idx)
    (second.load freePointer) = after at signaturePlaced
  have signatureBound := signaturePlaced.bounded
  have keyStays := @apart_word second (first.load freePointer)
    (signatures + 32 + 32 * idx) (by omega)
  have keyStored : after.load (publicKeys + 32 + 32 * idx) =
      first.load freePointer := by
    rw [signaturePlaced.extended.load_eq (by omega) (by omega)
      fun position above below held => by unfold Word at held; omega]
    exact keyPlaced.stored
  have slots : slotsAt after publicKeys signatures idx 1 =
      [(first.load freePointer, second.load freePointer)] := by
    rw [slotsAt_succ, keyStored, signaturePlaced.stored]
    rfl
  refine ⟨after, ?_, ?_, by omega, ?_, ?_⟩
  · simp only [fillKey, allocating, keyReturned, ok_bind, second_eq,
      signatureReturned, after_eq, pure_eq_ok]
  · exact (loaded.extended.of_extends.trans
      (keyPlaced.extended.mono fun _ held => .inl held)).trans
        (signaturePlaced.extended.mono fun _ held => .inr held)
  · rw [slots]
    intro address member
    rw [List.mem_singleton] at member
    subst member
    exact ⟨⟨keyPlaced.allocated.extend signaturePlaced.extended keyStays,
      loadedGrows⟩, signaturePlaced.allocated, by omega⟩
  · rw [slots, pairsAt, List.map_singleton,
      keyPlaced.allocated.bytesAt_eq signaturePlaced.extended keyStays,
      keyPlaced.bytesAt_eq, signaturePlaced.bytesAt_eq]

/-- An entry without the length of a key and a signature stops the loop. -/
theorem fillKey_fails {entry : Bytes} {failure : RiverProtocol.Error}
    (arrays : Arrays memory publicKeys signatures (idx + (amount + 1)))
    (room : 2 * (memory.load freePointer + entry.length + sparePerKey) + 64 <
      wordLimit)
    (split : ValidatorKeys.split entry = .error failure) :
    ∃ raised, fillKey entry publicKeys signatures idx memory =
      .error raised := by
  obtain ⟨above, apart, below⟩ := arrays
  have spare : sparePerKey = 336 := rfl
  obtain ⟨first, allocating, loaded⟩ :=
    @allocate_appends memory entry (by omega) (by omega)
  have loadedBound := loaded.bounded
  have loadedGrows := loaded.extended.grows
  simp only [fillKey, allocating]
  cases keyPart : sliceBytes entry 0 publicKeyLength with
  | error refused =>
      rw [← loaded.bytesAt_eq] at keyPart
      have inside := loaded.allocated.below
      obtain ⟨raised, failed⟩ := slice_fails (by omega) keyPart
      exact ⟨raised, by rw [failed]; rfl⟩
  | ok publicKey =>
      have keySize : publicKey.length ≤ 48 := length_le_of_slice keyPart
      have signaturePart : sliceBytes entry publicKeyLength signatureLength =
          .error failure := by
        simp only [ValidatorKeys.split, keyPart, ok_bind, bind_eq_error,
          pure_eq_error, and_false, exists_false, or_false] at split
        exact split
      rw [← loaded.bytesAt_eq] at keyPart
      obtain ⟨sliced, keyReturned, keyAppends⟩ :=
        slice_refines loaded.allocated (by omega) keyPart
      have keyPlaced := @Appends.placed first sliced
        (publicKeys + 32 + 32 * idx) publicKey keyAppends (by omega)
        (by omega) (by omega)
      have keyBound := keyPlaced.bounded
      have behind := @apart_word first (memory.load freePointer)
        (publicKeys + 32 + 32 * idx) (by omega)
      have inside :=
        (loaded.allocated.extend keyPlaced.extended behind).below
      rw [← loaded.bytesAt_eq, ← loaded.allocated.bytesAt_eq
        keyPlaced.extended behind] at signaturePart
      obtain ⟨raised, failed⟩ := slice_fails (by omega) signaturePart
      exact ⟨raised, by rw [keyReturned, ok_bind, failed]; rfl⟩

/-- As much as the arrays of this many entries may take. -/
def keyRoom (amount size : Nat) : Nat := amount * (size + sparePerKey)

theorem keyRoom_succ :
    keyRoom (amount + 1) size = keyRoom amount size + (size + sparePerKey) :=
  Nat.add_one_mul _ _

theorem pairsAt_append (memory : Memory) (first rest : List (Nat × Nat)) :
    pairsAt memory (first ++ rest) =
      pairsAt memory first ++ pairsAt memory rest :=
  List.map_append

/-- Pairs behind the elements stay while these are written. -/
theorem PairsAbove.extend {floor : Nat}
    (pairs : PairsAbove floor before addresses)
    (apart : publicKeys + 32 + 32 * (idx + amount) ≤ signatures)
    (behind : signatures + 32 + 32 * (idx + amount) ≤ floor)
    (further : ExtendsBut (Slots publicKeys signatures idx amount) before
      after) :
    PairsAbove floor after addresses ∧
      pairsAt after addresses = pairsAt before addresses := by
  have stays : ∀ address ≥ floor, Apart
      (Slots publicKeys signatures idx amount) before address :=
    fun address above => apart_slots apart (behind.trans above)
  refine ⟨?_, List.map_congr_left ?_⟩
  · intro address member
    obtain ⟨⟨publicKey, keyAbove⟩, signature, signatureAbove⟩ :=
      pairs address member
    exact ⟨⟨publicKey.extend further (stays _ keyAbove), keyAbove⟩,
      signature.extend further (stays _ signatureAbove), signatureAbove⟩
  · intro address member
    obtain ⟨⟨publicKey, keyAbove⟩, signature, signatureAbove⟩ :=
      pairs address member
    rw [publicKey.bytesAt_eq further (stays _ keyAbove),
      signature.bytesAt_eq further (stays _ signatureAbove)]

/-- Elements that were filled are not written again. -/
theorem slotsAt_one_eq
    (arrays : Arrays before publicKeys signatures (idx + 1 + amount))
    (further : ExtendsBut (Slots publicKeys signatures (idx + 1) amount)
      before after) :
    slotsAt after publicKeys signatures idx 1 =
      slotsAt before publicKeys signatures idx 1 := by
  obtain ⟨above, apart, below⟩ := arrays
  have first : after.load (publicKeys + 32 + 32 * idx) =
      before.load (publicKeys + 32 + 32 * idx) := by
    refine further.load_eq (by omega) (by omega) ?_
    intro position low high held
    unfold Slots at held
    omega
  have second : after.load (signatures + 32 + 32 * idx) =
      before.load (signatures + 32 + 32 * idx) := by
    refine further.load_eq (by omega) (by omega) ?_
    intro position low high held
    unfold Slots at held
    omega
  rw [slotsAt_succ, slotsAt_succ, first, second, slotsAt, slotsAt,
    List.range_zero, List.map_nil, List.map_nil]

/-- The loop fills the arrays with the keys in storage and writes nothing
else; induction on the number of keys. -/
theorem fillKeys_refines (sized : ∀ idx, (entries idx).length ≤ size)
    (arrays : Arrays memory publicKeys signatures (idx + amount))
    (room : 2 * (memory.load freePointer + keyRoom amount size) + 64 <
      wordLimit)
    (returned : getKeys entries (idx + startIdx) amount = .ok keys) :
    ∃ after, fillKeys entries startIdx publicKeys signatures idx amount
        memory = .ok after ∧
      ExtendsBut (Slots publicKeys signatures idx amount) memory after ∧
      PairsAbove (memory.load freePointer) after
        (slotsAt after publicKeys signatures idx amount) ∧
      pairsAt after (slotsAt after publicKeys signatures idx amount) =
        keys := by
  induction amount generalizing idx memory keys with
  | zero =>
      rw [getKeys, pure_eq_ok] at returned
      subst returned
      exact ⟨memory, rfl, .refl memory,
        fun _ member => absurd member List.not_mem_nil, rfl⟩
  | succ amount induction =>
      rw [keyRoom_succ] at room
      have entrySize := sized (idx + startIdx)
      simp only [getKeys, bind_eq_ok, pure_eq_ok, Prod.exists] at returned
      obtain ⟨publicKey, signature, split, rest, others, rfl⟩ := returned
      obtain ⟨middle, filling, extended, bounded, pairs, read⟩ :=
        fillKey_refines arrays (by omega) split
      have next : idx + startIdx + 1 = idx + 1 + startIdx := by omega
      have total : idx + 1 + amount = idx + (amount + 1) := by omega
      rw [next] at others
      have later := arrays.extend extended
      rw [← total] at later
      obtain ⟨after, remaining, further, restPairs, restRead⟩ :=
        induction later (by omega) others
      obtain ⟨above, apart, below⟩ := arrays
      have grows := extended.grows
      have same := slotsAt_one_eq later further
      obtain ⟨kept, keptRead⟩ :=
        pairs.extend (by omega) (by omega) further
      refine ⟨after, ?_, ?_, ?_, ?_⟩
      · rw [fillKeys, filling]
        exact remaining
      · refine (extended.mono fun position held => ?_).trans
          (further.mono fun position held => ?_)
        · unfold Slots at held ⊢
          omega
        · unfold Slots at held ⊢
          omega
      · rw [slotsAt_append, same]
        intro address member
        rcases List.mem_append.mp member with first | rest
        · exact kept address first
        · obtain ⟨⟨first, high⟩, second, higher⟩ := restPairs address rest
          exact ⟨⟨first, grows.trans high⟩, second, grows.trans higher⟩
      · rw [slotsAt_append, same, pairsAt_append, keptRead, read, restRead]
        rfl

theorem fillKeys_fails {failure : RiverProtocol.Error}
    (sized : ∀ idx, (entries idx).length ≤ size)
    (arrays : Arrays memory publicKeys signatures (idx + amount))
    (room : 2 * (memory.load freePointer + keyRoom amount size) + 64 <
      wordLimit)
    (failed : getKeys entries (idx + startIdx) amount = .error failure) :
    ∃ raised, fillKeys entries startIdx publicKeys signatures idx amount
      memory = .error raised := by
  induction amount generalizing idx memory with
  | zero => cases failed
  | succ amount induction =>
      rw [keyRoom_succ] at room
      have entrySize := sized (idx + startIdx)
      rw [fillKeys]
      cases split : ValidatorKeys.split (entries (idx + startIdx)) with
      | error refused =>
          obtain ⟨raised, stopped⟩ := fillKey_fails arrays (by omega) split
          exact ⟨raised, by rw [stopped]; rfl⟩
      | ok pair =>
          obtain ⟨publicKey, signature⟩ := pair
          obtain ⟨middle, filling, extended, bounded, -, -⟩ :=
            fillKey_refines arrays (by omega) split
          have next : idx + startIdx + 1 = idx + 1 + startIdx := by omega
          have total : idx + 1 + amount = idx + (amount + 1) := by omega
          have others : getKeys entries (idx + 1 + startIdx) amount =
              .error failure := by
            rw [← next]
            cases rest : getKeys entries (idx + startIdx + 1) amount with
            | ok rest => simp [getKeys, split, rest] at failed
            | error other => simpa [getKeys, split, rest] using failed
          have later := arrays.extend extended
          rw [← total] at later
          obtain ⟨raised, stopped⟩ := induction later (by omega) others
          exact ⟨raised, by rw [filling]; exact stopped⟩

/-- What the two arrays of addresses take. -/
def arrayRoom (amount : Nat) : Nat := 64 + 64 * amount

/-- What `getKeys` needs of memory: room for its arrays. -/
def Roomy (memory : Memory) (amount size : Nat) : Prop :=
  heapStart ≤ memory.load freePointer ∧
    2 * (memory.load freePointer + arrayRoom amount + keyRoom amount size) +
      64 < wordLimit

/-- The two arrays of addresses are new. -/
theorem newArrays_arrays (roomy : Roomy memory amount size) :
    ∃ middle after publicKeys signatures,
      newArray memory amount = (middle, publicKeys) ∧
      newArray middle amount = (after, signatures) ∧
      Extends memory after ∧ memory.load freePointer ≤ publicKeys ∧
      Arrays after publicKeys signatures (0 + amount) ∧
      after.load publicKeys = amount ∧ after.load signatures = amount ∧
      after.load freePointer =
        memory.load freePointer + arrayRoom amount := by
  obtain ⟨heap, room⟩ := roomy
  unfold arrayRoom at room ⊢
  obtain ⟨middle, first, extended, length, pointer⟩ :=
    @newArray_extends memory amount heap (by omega)
  obtain ⟨after, second, further, lengthAfter, pointerAfter⟩ :=
    @newArray_extends middle amount (by omega) (by omega)
  refine ⟨middle, after, _, _, first, second, extended.trans further,
    le_rfl, ⟨heap, by omega, by omega⟩, ?_, lengthAfter, by omega⟩
  rw [further.load_eq heap (by omega) fun _ _ _ => not_false]
  exact length

theorem PairsAbove.wordsAt {memory : Memory} {floor : Nat}
    (keyLength : memory.load publicKeys = amount)
    (signatureLength : memory.load signatures = amount)
    (pairs : PairsAbove floor memory
      (slotsAt memory publicKeys signatures 0 amount)) :
    ∀ address ∈ memory.wordsAt publicKeys ++ memory.wordsAt signatures,
      Allocated memory address ∧ floor ≤ address := by
  intro address member
  simp only [Memory.wordsAt, keyLength, signatureLength, List.mem_append,
    List.mem_map, List.mem_range] at member
  have slot : ∀ index < amount,
      (memory.load (publicKeys + 32 + 32 * index),
        memory.load (signatures + 32 + 32 * index)) ∈
          slotsAt memory publicKeys signatures 0 amount := by
    intro index inside
    refine List.mem_map.mpr ⟨index, List.mem_range.mpr inside, ?_⟩
    rw [Nat.zero_add]
  rcases member with ⟨index, inside, rfl⟩ | ⟨index, inside, rfl⟩
  · exact (pairs _ (slot index inside)).1
  · exact (pairs _ (slot index inside)).2

theorem wordsAt_of_slots {memory : Memory}
    (keyLength : memory.load publicKeys = amount)
    (signatureLength : memory.load signatures = amount)
    (read : pairsAt memory (slotsAt memory publicKeys signatures 0 amount) =
      keys) :
    (memory.wordsAt publicKeys).map memory.bytesAt = keys.map Prod.fst ∧
      (memory.wordsAt signatures).map memory.bytesAt =
        keys.map Prod.snd := by
  subst read
  simp only [Memory.wordsAt, keyLength, signatureLength, pairsAt, slotsAt,
    List.map_map, Function.comp_def, Nat.zero_add, and_self]

/-- The keys come out of memory as they are in storage, in new arrays and
beside all that was allocated before; the loop stops where the list of keys
does not exist. -/
theorem keys_through_memory (sized : ∀ idx, (entries idx).length ≤ size)
    (roomy : Roomy memory amount size) :
    (∀ keys, getKeys entries startIdx amount = .ok keys →
      ∃ after publicKeys signatures,
        readKeys entries startIdx amount memory =
          .ok (after, publicKeys, signatures) ∧
        (after.wordsAt publicKeys).map after.bytesAt = keys.map Prod.fst ∧
        (after.wordsAt signatures).map after.bytesAt = keys.map Prod.snd ∧
        (∀ address ∈ after.wordsAt publicKeys ++ after.wordsAt signatures,
          Allocated after address ∧ memory.load freePointer ≤ address) ∧
        Extends memory after) ∧
    ∀ failure, getKeys entries startIdx amount = .error failure →
      ∃ raised, readKeys entries startIdx amount memory = .error raised := by
  obtain ⟨middle, start, publicKeys, signatures, first, second, extended,
    new, arrays, keyLength, signatureLength, pointer⟩ :=
    newArrays_arrays roomy
  obtain ⟨heap, room⟩ := roomy
  rw [← pointer] at room
  refine ⟨?_, ?_⟩
  · intro keys returned
    rw [← Nat.zero_add startIdx] at returned
    obtain ⟨after, filling, further, pairs, read⟩ :=
      fillKeys_refines sized arrays room returned
    obtain ⟨above, apart, below⟩ := arrays
    have keysAfter : after.load publicKeys = amount := by
      rw [further.load_eq above (by omega)
        fun position low high held => by unfold Slots at held; omega]
      exact keyLength
    have signaturesAfter : after.load signatures = amount := by
      rw [further.load_eq (by omega) (by omega)
        fun position low high held => by unfold Slots at held; omega]
      exact signatureLength
    obtain ⟨keysRead, signaturesRead⟩ :=
      wordsAt_of_slots keysAfter signaturesAfter read
    refine ⟨after, publicKeys, signatures, ?_, keysRead, signaturesRead, ?_,
      ?_⟩
    · simp only [readKeys, first, second, filling]
      rfl
    · intro address member
      obtain ⟨allocated, high⟩ :=
        pairs.wordsAt keysAfter signaturesAfter address member
      exact ⟨allocated, extended.grows.trans high⟩
    · -- the arrays that are written are not part of the memory before
      refine ⟨extended.grows.trans further.grows, ?_⟩
      intro position low high _
      rw [further.kept position low (high.trans_le extended.grows)
        fun held => by unfold Slots at held; omega]
      exact extended.kept position low high not_false
  · intro failure failed
    rw [← Nat.zero_add startIdx] at failed
    obtain ⟨raised, stopped⟩ := fillKeys_fails sized arrays room failed
    exact ⟨raised, by simp only [readKeys, first, second, stopped]; rfl⟩

/-- Memory right after the compiler has set it up. -/
def freshMemory : Memory := Memory.store (fun _ => 0) freePointer heapStart

/-- Two keys of 144 bytes each are read, and a note that was in memory before
them can still be read. -/
theorem keys_through_memory_sample :
    ∃ before note after publicKeys signatures,
      allocate freshMemory [1, 2, 3] = (before, note) ∧
      readKeys (fun idx => List.replicate 144 (.ofNat idx)) 3 2 before =
        .ok (after, publicKeys, signatures) ∧
      (after.wordsAt publicKeys).map after.bytesAt =
        [List.replicate 48 3, List.replicate 48 4] ∧
      (after.wordsAt signatures).map after.bytesAt =
        [List.replicate 96 3, List.replicate 96 4] ∧
      after.bytesAt note = [1, 2, 3] := by
  have start : freshMemory.load freePointer = heapStart :=
    Memory.load_store (by decide)
  obtain ⟨before, noting, noted⟩ :=
    @allocate_appends freshMemory [1, 2, 3] start.ge
      (by rw [start]; decide)
  have bounded := noted.bounded
  have grows := noted.extended.grows
  have length : List.length ([1, 2, 3] : Bytes) = 3 := rfl
  rw [start, length] at bounded
  rw [start] at grows
  have sized : ∀ idx,
      (List.replicate 144 (UInt8.ofNat idx)).length ≤ 144 := by
    intro idx
    rw [List.length_replicate]
  have roomy : Roomy before 2 144 := by
    refine ⟨grows, ?_⟩
    have limit : 2 * (heapStart + 3 + 64 + arrayRoom 2 + keyRoom 2 144) + 64 <
        wordLimit := by decide
    omega
  have halves : ∀ byte : UInt8, split (List.replicate 144 byte) =
      .ok (List.replicate 48 byte, List.replicate 96 byte) := by
    intro byte
    rw [split_eq_ok, List.take_replicate, List.drop_replicate,
      List.take_replicate, List.length_replicate]
    exact ⟨by decide, rfl, rfl⟩
  have returned : getKeys (fun idx => List.replicate 144 (UInt8.ofNat idx))
      3 2 = .ok [(List.replicate 48 3, List.replicate 96 3),
        (List.replicate 48 4, List.replicate 96 4)] := by
    simp only [getKeys, halves]
    rfl
  obtain ⟨after, publicKeys, signatures, reading, keysRead, signaturesRead,
    -, extended⟩ := (keys_through_memory sized roomy).1 _ returned
  refine ⟨before, _, after, publicKeys, signatures, noting, reading, keysRead,
    signaturesRead, ?_⟩
  rw [noted.allocated.bytesAt_eq extended apart_nothing]
  exact noted.bytesAt_eq

end ValidatorKeys

end RiverProtocol
