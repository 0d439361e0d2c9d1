import Mathlib.Data.Nat.Log
import RiverProtocol.Lib.LittleEndian

/-!
# Roots of hash trees

The root of a value over a hash of pairs of chunks: byte strings are cut into
chunks, a container has the roots of its fields for leaves, and leaves are
padded with zero chunks to a full binary tree.  Two values of one shape have
the same root only if they are the same, or if the hash takes one value on two
different strings that were hashed on the way.
-/

namespace Merkle

/-- The values of static types. -/
inductive Value where
  | bytes (data : List UInt8)
  | uint (size value : Nat)
  | container (fields : List Value)

/-- A chunk of 32 bytes. -/
def pad (bytes : List UInt8) : List UInt8 :=
  bytes ++ List.replicate (32 - bytes.length) 0

def zeroChunk : List UInt8 := List.replicate 32 0

/-- The chunks of a byte string, the last one padded. -/
def chunks (bytes : List UInt8) : List (List UInt8) :=
  (List.range ((bytes.length + 31) / 32)).map fun place =>
    pad ((bytes.drop (32 * place)).take 32)

section

variable (hash : List UInt8 → List UInt8) (zero : List UInt8)

/-- The root of a full tree of this depth over the leaves, padded with zero
leaves. -/
def tree : Nat → List (List UInt8) → List UInt8
  | 0, leaves => leaves.headD zero
  | depth + 1, leaves =>
    hash (tree depth (leaves.take (2 ^ depth)) ++
      tree depth (leaves.drop (2 ^ depth)))

/-- The strings hashed for the root of a tree. -/
def hashed : Nat → List (List UInt8) → List (List UInt8)
  | 0, _ => []
  | depth + 1, leaves =>
    (tree hash zero depth (leaves.take (2 ^ depth)) ++
      tree hash zero depth (leaves.drop (2 ^ depth))) ::
      (hashed depth (leaves.take (2 ^ depth)) ++
        hashed depth (leaves.drop (2 ^ depth)))

def merkleize (leaves : List (List UInt8)) : List UInt8 :=
  tree hash zeroChunk (Nat.clog 2 leaves.length) leaves

def merkleized (leaves : List (List UInt8)) : List (List UInt8) :=
  hashed hash zeroChunk (Nat.clog 2 leaves.length) leaves

mutual

def Value.root : Value → List UInt8
  | .bytes data => merkleize hash (chunks data)
  | .uint size value => pad (LittleEndian.encode size value)
  | .container fields => merkleize hash (Value.roots fields)

def Value.roots : List Value → List (List UInt8)
  | [] => []
  | field :: fields => field.root :: Value.roots fields

end

mutual

/-- The strings hashed for the root of a value. -/
def Value.hashed : Value → List (List UInt8)
  | .bytes data => merkleized hash (chunks data)
  | .uint _ _ => []
  | .container fields =>
    merkleized hash (Value.roots hash fields) ++ Value.hashedEach fields

def Value.hashedEach : List Value → List (List UInt8)
  | [] => []
  | field :: fields => field.hashed ++ Value.hashedEach fields

end

/-- The hash takes one value on two different strings of these lists. -/
def Collides (left right : List (List UInt8)) : Prop :=
  ∃ one ∈ left, ∃ other ∈ right, one ≠ other ∧ hash one = hash other

end

mutual

/-- Two values of one type: of the same sizes, with numbers that fit. -/
inductive SameShape : Value → Value → Prop where
  | bytes {one other : List UInt8} : one.length = other.length →
      SameShape (.bytes one) (.bytes other)
  | uint {size one other : Nat} : size ≤ 32 → one < 256 ^ size →
      other < 256 ^ size → SameShape (.uint size one) (.uint size other)
  | container {one other : List Value} : SameShapes one other →
      SameShape (.container one) (.container other)

inductive SameShapes : List Value → List Value → Prop where
  | nil : SameShapes [] []
  | cons {one other : Value} {rest others : List Value} :
      SameShape one other → SameShapes rest others →
      SameShapes (one :: rest) (other :: others)

end

variable {hash : List UInt8 → List UInt8} {zero : List UInt8}

theorem length_pad {bytes : List UInt8} (fits : bytes.length ≤ 32) :
    (pad bytes).length = 32 := by
  rw [pad, List.length_append, List.length_replicate]
  omega

theorem length_zeroChunk : zeroChunk.length = 32 := List.length_replicate

theorem Collides.mono {left right more others : List (List UInt8)}
    (collides : Collides hash left right) (first : left ⊆ more)
    (second : right ⊆ others) : Collides hash more others := by
  obtain ⟨one, member, other, otherMember, different, same⟩ := collides
  exact ⟨one, first member, other, second otherMember, different, same⟩

/-- Every leaf is a chunk. -/
def Chunked (leaves : List (List UInt8)) : Prop :=
  ∀ leaf ∈ leaves, leaf.length = 32

theorem Chunked.take {leaves : List (List UInt8)} (chunked : Chunked leaves)
    (count : Nat) : Chunked (leaves.take count) :=
  fun leaf member => chunked leaf (List.mem_of_mem_take member)

theorem Chunked.drop {leaves : List (List UInt8)} (chunked : Chunked leaves)
    (count : Nat) : Chunked (leaves.drop count) :=
  fun leaf member => chunked leaf (List.mem_of_mem_drop member)

theorem chunked_chunks (bytes : List UInt8) : Chunked (chunks bytes) := by
  intro chunk member
  obtain ⟨place, -, rfl⟩ := List.mem_map.mp member
  exact length_pad (List.length_take_le _ _)

theorem pad_of_length {bytes : List UInt8} (whole : bytes.length = 32) :
    pad bytes = bytes := by
  rw [pad, whole]
  exact List.append_nil bytes

theorem chunks_append {first rest : List UInt8} (whole : first.length = 32) :
    chunks (first ++ rest) = first :: chunks rest := by
  have count : ((first ++ rest).length + 31) / 32 =
      (rest.length + 31) / 32 + 1 := by
    rw [List.length_append, whole]
    omega
  rw [chunks, count, List.range_succ_eq_map, List.map_cons, List.map_map,
    Nat.mul_zero, List.drop_zero, List.take_append_of_le_length whole.ge,
    List.take_of_length_le whole.le, pad_of_length whole, chunks]
  congr 1
  apply List.map_congr_left
  intro place _
  have beyond : 32 * (place + 1) = first.length + 32 * place := by
    rw [whole]
    omega
  rw [Function.comp_apply, Nat.succ_eq_add_one, beyond,
    List.drop_append, List.drop_of_length_le (Nat.le_add_right _ _),
    Nat.add_sub_cancel_left, List.nil_append]

theorem chunks_short {bytes : List UInt8} (some : 0 < bytes.length)
    (short : bytes.length ≤ 32) : chunks bytes = [pad bytes] := by
  have count : (bytes.length + 31) / 32 = 1 := by omega
  rw [chunks, count, List.range_one, List.map_singleton, Nat.mul_zero,
    List.drop_zero, List.take_of_length_le short]

theorem length_tree (wide : ∀ bytes, (hash bytes).length = 32)
    (whole : zero.length = 32) {leaves : List (List UInt8)}
    (chunked : Chunked leaves) (depth : Nat) :
    (tree hash zero depth leaves).length = 32 := by
  cases depth with
  | zero =>
      cases leaves with
      | nil => exact whole
      | cons leaf rest => exact chunked leaf List.mem_cons_self
  | succ depth => exact wide _

/-- Trees with the same root have the same leaves, or the hash collides. -/
theorem tree_binds (wide : ∀ bytes, (hash bytes).length = 32)
    (whole : zero.length = 32) {depth : Nat}
    {left right : List (List UInt8)} (count : left.length = right.length)
    (fits : left.length ≤ 2 ^ depth) (chunked : Chunked left)
    (others : Chunked right)
    (same : tree hash zero depth left = tree hash zero depth right) :
    left = right ∨
      Collides hash (hashed hash zero depth left)
        (hashed hash zero depth right) := by
  induction depth generalizing left right with
  | zero =>
      match left, right, count with
      | [], [], _ => exact .inl rfl
      | [leaf], [other], _ =>
          exact .inl (congrArg (fun leaf => [leaf]) same)
      | _ :: _ :: _, _, _ => simp at fits
  | succ depth induction =>
      by_cases joined : tree hash zero depth (left.take (2 ^ depth)) ++
          tree hash zero depth (left.drop (2 ^ depth)) =
          tree hash zero depth (right.take (2 ^ depth)) ++
          tree hash zero depth (right.drop (2 ^ depth))
      · obtain ⟨firsts, seconds⟩ := List.append_inj joined (by
          rw [length_tree wide whole (chunked.take _),
            length_tree wide whole (others.take _)])
        have halves : left.take (2 ^ depth) = right.take (2 ^ depth) ∨ _ :=
          induction (by rw [List.length_take, List.length_take, count])
            (List.length_take_le _ _) (chunked.take _) (others.take _) firsts
        have rests : left.drop (2 ^ depth) = right.drop (2 ^ depth) ∨ _ :=
          induction (by rw [List.length_drop, List.length_drop, count])
            (by rw [List.length_drop]; omega) (chunked.drop _)
            (others.drop _) seconds
        rcases halves with half | collides
        · rcases rests with rest | collides
          · left
            rw [← List.take_append_drop (2 ^ depth) left, half, rest,
              List.take_append_drop]
          · right
            refine collides.mono ?_ ?_
            · exact fun item member => List.mem_cons_of_mem _
                (List.mem_append_right _ member)
            · exact fun item member => List.mem_cons_of_mem _
                (List.mem_append_right _ member)
        · right
          refine collides.mono ?_ ?_
          · exact fun item member => List.mem_cons_of_mem _
              (List.mem_append_left _ member)
          · exact fun item member => List.mem_cons_of_mem _
              (List.mem_append_left _ member)
      · exact .inr ⟨_, List.mem_cons_self, _, List.mem_cons_self, joined, same⟩

theorem length_merkleize (wide : ∀ bytes, (hash bytes).length = 32)
    {leaves : List (List UInt8)} (chunked : Chunked leaves) :
    (merkleize hash leaves).length = 32 :=
  length_tree wide length_zeroChunk chunked _

theorem merkleize_binds (wide : ∀ bytes, (hash bytes).length = 32)
    {left right : List (List UInt8)} (count : left.length = right.length)
    (chunked : Chunked left) (others : Chunked right)
    (same : merkleize hash left = merkleize hash right) :
    left = right ∨
      Collides hash (merkleized hash left) (merkleized hash right) := by
  rw [merkleize, merkleize, ← count] at same
  rw [merkleized, merkleized, ← count]
  exact tree_binds wide length_zeroChunk count
    (Nat.le_pow_clog (by decide) _) chunked others same

theorem chunks_injective {left right : List UInt8}
    (count : left.length = right.length) (same : chunks left = chunks right) :
    left = right := by
  apply List.ext_getElem count
  intro place inside _
  have inRange : place / 32 < (left.length + 31) / 32 := by omega
  have chunk := congrArg (fun list => (list[place / 32]?)) same
  simp only [chunks, List.getElem?_map, ← count,
    List.getElem?_range inRange, Option.map_some, Option.some.injEq, pad]
    at chunk
  have digit := congrArg (fun list => (list[place % 32]?)) chunk
  have position : 32 * (place / 32) + place % 32 = place :=
    Nat.div_add_mod place 32
  have below : place % 32 < 32 := Nat.mod_lt _ (by decide)
  have insideLeft : place % 32 <
      ((left.drop (32 * (place / 32))).take 32).length := by
    rw [List.length_take, List.length_drop]
    omega
  have insideRight : place % 32 <
      ((right.drop (32 * (place / 32))).take 32).length := by
    rw [List.length_take, List.length_drop]
    omega
  simp only [List.getElem?_append_left insideLeft,
    List.getElem?_append_left insideRight,
    List.getElem?_take_of_lt below, List.getElem?_drop, position] at digit
  rw [List.getElem?_eq_getElem inside,
    List.getElem?_eq_getElem (count ▸ inside)] at digit
  exact Option.some.inj digit

theorem pad_encode_injective {size one other : Nat} (first : one < 256 ^ size)
    (second : other < 256 ^ size)
    (same : pad (LittleEndian.encode size one) =
      pad (LittleEndian.encode size other)) : one = other := by
  rw [pad, pad] at same
  have digits := (List.append_inj same (by simp)).1
  rw [← LittleEndian.decode_encode_of_lt first, digits,
    LittleEndian.decode_encode_of_lt second]

mutual

theorem chunked_root (wide : ∀ bytes, (hash bytes).length = 32)
    {one other : Value} (shape : SameShape one other) :
    (one.root hash).length = 32 ∧ (other.root hash).length = 32 := by
  cases shape with
  | bytes =>
      exact ⟨length_merkleize wide (chunked_chunks _),
        length_merkleize wide (chunked_chunks _)⟩
  | uint small =>
      constructor
      · exact length_pad (by rw [LittleEndian.length_encode]; exact small)
      · exact length_pad (by rw [LittleEndian.length_encode]; exact small)
  | container shapes =>
      obtain ⟨-, chunked, others⟩ := chunked_roots wide shapes
      exact ⟨length_merkleize wide chunked, length_merkleize wide others⟩

theorem chunked_roots (wide : ∀ bytes, (hash bytes).length = 32)
    {one other : List Value} (shapes : SameShapes one other) :
    (Value.roots hash one).length = (Value.roots hash other).length ∧
      Chunked (Value.roots hash one) ∧ Chunked (Value.roots hash other) := by
  cases shapes with
  | nil => exact ⟨rfl, fun _ member => absurd member List.not_mem_nil,
      fun _ member => absurd member List.not_mem_nil⟩
  | cons shape shapes =>
      obtain ⟨first, second⟩ := chunked_root wide shape
      obtain ⟨count, chunked, others⟩ := chunked_roots wide shapes
      refine ⟨congrArg (· + 1) count, ?_, ?_⟩
      · exact List.forall_mem_cons.mpr ⟨first, chunked⟩
      · exact List.forall_mem_cons.mpr ⟨second, others⟩

end

mutual

/-- The root of a value fixes the value, unless the hash collides. -/
theorem root_binds (wide : ∀ bytes, (hash bytes).length = 32)
    {one other : Value} (shape : SameShape one other)
    (same : one.root hash = other.root hash) :
    one = other ∨ Collides hash (one.hashed hash) (other.hashed hash) := by
  cases shape with
  | @bytes one other length =>
      have count : (chunks one).length = (chunks other).length := by
        rw [chunks, chunks, length]
        simp
      rcases merkleize_binds wide count (chunked_chunks _) (chunked_chunks _)
        same with equal | collides
      · exact .inl (congrArg Value.bytes (chunks_injective length equal))
      · exact .inr collides
  | uint _ first second =>
      exact .inl (congrArg _ (pad_encode_injective first second same))
  | container shapes =>
      obtain ⟨count, chunked, others⟩ := chunked_roots wide shapes
      rcases merkleize_binds wide count chunked others same with
        equal | collides
      · rcases roots_bind wide shapes equal with fields | collides
        · exact .inl (congrArg Value.container fields)
        · exact .inr (collides.mono (List.subset_append_right _ _)
            (List.subset_append_right _ _))
      · exact .inr (collides.mono (List.subset_append_left _ _)
          (List.subset_append_left _ _))

theorem roots_bind (wide : ∀ bytes, (hash bytes).length = 32)
    {one other : List Value} (shapes : SameShapes one other)
    (same : Value.roots hash one = Value.roots hash other) :
    one = other ∨
      Collides hash (Value.hashedEach hash one)
        (Value.hashedEach hash other) := by
  cases shapes with
  | nil => exact .inl rfl
  | cons shape shapes =>
      obtain ⟨first, rest⟩ := List.cons.inj same
      rcases root_binds wide shape first with field | collides
      · rcases roots_bind wide shapes rest with fields | collides
        · exact .inl (by rw [field, fields])
        · exact .inr (collides.mono (List.subset_append_right _ _)
            (List.subset_append_right _ _))
      · exact .inr (collides.mono (List.subset_append_left _ _)
          (List.subset_append_left _ _))

end

end Merkle
