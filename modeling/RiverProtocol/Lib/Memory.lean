import RiverProtocol.Lib.Checked
import RiverProtocol.Lib.LittleEndian

/-!
# A memory of bytes read and written in words

A word is 32 bytes, the most significant first, and may lie at any address.
A store changes the bytes of its word and no others, and a word that is loaded
and stored elsewhere takes its bytes along.
-/

/-- A byte at every address. -/
abbrev Memory : Type := Nat → UInt8

namespace Memory

open Checked

/-- The word at an address. -/
def load (memory : Memory) (address : Nat) : Nat :=
  LittleEndian.decode
    ((List.range 32).map fun place => memory (address + 31 - place))

/-- Write a word at an address. -/
def store (memory : Memory) (address value : Nat) : Memory :=
  fun position =>
    if address ≤ position ∧ position < address + 32 then
      UInt8.ofNat (value / 256 ^ (address + 31 - position))
    else memory position

variable {memory other : Memory} {address position value : Nat}

theorem load_congr (same : ∀ position, address ≤ position →
    position < address + 32 → memory position = other position) :
    load memory address = load other address := by
  unfold load
  congr 1
  apply List.map_congr_left
  intro place member
  have inside := List.mem_range.mp member
  exact same _ (by omega) (by omega)

theorem store_outside (outside : position < address ∨
    address + 32 ≤ position) :
    store memory address value position = memory position :=
  if_neg (by omega)

theorem load_store (fits : value < wordLimit) :
    load (store memory address value) address = value := by
  have digits : ((List.range 32).map fun place =>
      store memory address value (address + 31 - place)) =
        LittleEndian.encode 32 value := by
    apply List.map_congr_left
    intro place member
    have inside := List.mem_range.mp member
    have back : address + 31 - (address + 31 - place) = place := by omega
    rw [store, if_pos (by omega), back]
  rw [load, digits]
  exact LittleEndian.decode_encode_of_lt (fits.trans_eq (by decide))

theorem load_store_outside {word : Nat}
    (apart : word + 32 ≤ address ∨ address + 32 ≤ word) :
    load (store memory address value) word = load memory word := by
  apply load_congr
  intro position above below
  exact store_outside (by omega)

theorem store_load {source : Nat} (above : address ≤ position)
    (below : position < address + 32) :
    store memory address (load other source) position =
      other (source + (position - address)) := by
  have inside : address + 31 - position < ((List.range 32).map fun place =>
      other (source + 31 - place)).length := by
    rw [List.length_map, List.length_range]
    omega
  have moved : source + 31 - (address + 31 - position) =
      source + (position - address) := by omega
  rw [store, if_pos ⟨above, below⟩, load,
    LittleEndian.ofNat_decode_div inside, List.getElem_map,
    List.getElem_range, moved]

/-- The loop that copies words upwards until the target reaches a bound, with
the address it stops at. -/
def copyUntil (memory : Memory) (target source stop : Nat) : Memory × Nat :=
  if target < stop then
    copyUntil (store memory target (load memory source)) (target + 32)
      (source + 32) stop
  else
    (memory, target)
termination_by stop - target

/-- Where the loop stops: the bound, rounded up to whole words. -/
def copyEnd (target stop : Nat) : Nat :=
  target + (stop - target + 31) / 32 * 32

theorem copyUntil_done {target source stop : Nat} (done : stop ≤ target) :
    copyUntil memory target source stop = (memory, target) := by
  rw [copyUntil, if_neg (Nat.not_lt.mpr done)]

/-- The bytes below a floor are copied to a target above it. -/
theorem copyUntil_spec (memory : Memory) (target source stop : Nat)
    {floor : Nat}
    (below : source + (copyEnd target stop - target) ≤ floor)
    (above : floor ≤ target) :
    (copyUntil memory target source stop).2 = copyEnd target stop ∧
    (∀ position, target ≤ position → position < copyEnd target stop →
      (copyUntil memory target source stop).1 position =
        memory (source + (position - target))) ∧
    ∀ position, position < target ∨ copyEnd target stop ≤ position →
      (copyUntil memory target source stop).1 position =
        memory position := by
  induction memory, target, source using copyUntil.induct stop with
  | case1 memory target source more induction =>
      have next : copyEnd (target + 32) stop = copyEnd target stop := by
        unfold copyEnd
        omega
      have ahead : target + 32 ≤ copyEnd target stop := by
        unfold copyEnd
        omega
      rw [next] at induction
      obtain ⟨stopped, copied, kept⟩ := induction (by omega) (by omega)
      rw [copyUntil, if_pos more]
      refine ⟨stopped, ?_, ?_⟩
      · intro position here inside
        by_cases first : position < target + 32
        · -- the first word, which the rest of the loop leaves alone
          rw [kept position (.inl first), store_load here first]
        · have source_eq : source + 32 + (position - (target + 32)) =
              source + (position - target) := by omega
          rw [copied position (by omega) inside, source_eq]
          exact store_outside (.inl (by omega))
      · intro position outside
        rw [kept position (by omega)]
        exact store_outside (by omega)
  | case2 memory target source done =>
      have empty : copyEnd target stop = target := by
        unfold copyEnd
        omega
      rw [copyUntil_done (Nat.not_lt.mp done), empty]
      refine ⟨rfl, ?_, fun _ _ => rfl⟩
      intro position here inside
      omega

/-- The bytes of an array of bytes: after the word of its length, the bytes. -/
def bytesAt (memory : Memory) (address : Nat) : List UInt8 :=
  (List.range (load memory address)).map fun index =>
    memory (address + 32 + index)

/-- The elements of an array of words: after the word of its length, the
words. -/
def wordsAt (memory : Memory) (address : Nat) : List Nat :=
  (List.range (load memory address)).map fun index =>
    load memory (address + 32 + 32 * index)

@[simp] theorem length_bytesAt :
    (bytesAt memory address).length = load memory address := by
  rw [bytesAt, List.length_map, List.length_range]

theorem getElem_bytesAt {index : Nat}
    (inside : index < (bytesAt memory address).length) :
    (bytesAt memory address)[index] = memory (address + 32 + index) := by
  simp [bytesAt]

theorem bytesAt_congr
    (same : ∀ position, address ≤ position →
      position < address + 32 + load memory address →
      other position = memory position) :
    bytesAt other address = bytesAt memory address := by
  have length : load other address = load memory address :=
    load_congr fun position above below => same position above (by omega)
  rw [bytesAt, bytesAt, length]
  apply List.map_congr_left
  intro index member
  have inside := List.mem_range.mp member
  exact same _ (by omega) (by omega)

theorem take_drop_bytesAt {start length : Nat}
    (inside : start + length ≤ load memory address) :
    ((bytesAt memory address).drop start).take length =
      (List.range length).map fun index =>
        memory (address + 32 + (start + index)) := by
  apply List.ext_getElem
  · rw [List.length_take, List.length_drop, length_bytesAt, List.length_map,
      List.length_range]
    omega
  · intro index first second
    rw [List.getElem_take, List.getElem_drop, getElem_bytesAt,
      List.getElem_map, List.getElem_range]

end Memory
