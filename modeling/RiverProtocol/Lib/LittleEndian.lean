import Mathlib.Data.Nat.Digits.Defs
import Mathlib.Tactic.Common

/-!
# Numbers as strings of bytes

The bytes of a number to the base 256, least significant first.  Decoding a
string of given length and encoding are inverse to each other, up to what the
length can hold.
-/

namespace LittleEndian

/-- The number of these digits. -/
def decode (bytes : List UInt8) : Nat :=
  Nat.ofDigits 256 (bytes.map UInt8.toNat)

/-- The lowest digits of a number. -/
def encode (length value : Nat) : List UInt8 :=
  (List.range length).map fun place => UInt8.ofNat (value / 256 ^ place)

variable {bytes : List UInt8} {length value place : Nat}

@[simp] theorem decode_nil : decode [] = 0 := rfl

@[simp] theorem decode_cons (first : UInt8) (rest : List UInt8) :
    decode (first :: rest) = first.toNat + 256 * decode rest := by
  rw [decode, List.map_cons, Nat.ofDigits_cons]
  rfl

theorem decode_append (first second : List UInt8) :
    decode (first ++ second) =
      decode first + 256 ^ first.length * decode second := by
  rw [decode, List.map_append, Nat.ofDigits_append, List.length_map]
  rfl

@[simp] theorem length_encode : (encode length value).length = length := by
  rw [encode, List.length_map, List.length_range]

theorem getElem?_encode (inside : place < length) :
    (encode length value)[place]? =
      some (UInt8.ofNat (value / 256 ^ place)) := by
  rw [encode, List.getElem?_map, List.getElem?_range inside]
  rfl

@[simp] theorem encode_zero : encode 0 value = [] := rfl

theorem encode_succ : encode (length + 1) value =
    UInt8.ofNat value :: encode length (value / 256) := by
  rw [encode, List.range_succ_eq_map, List.map_cons, List.map_map,
    Nat.pow_zero, Nat.div_one]
  congr 1
  apply List.map_congr_left
  intro place _
  rw [Function.comp_apply, Nat.div_div_eq_div_mul, Nat.pow_succ,
    Nat.mul_comm (256 ^ place)]

theorem encode_concat : encode (length + 1) value =
    encode length value ++ [UInt8.ofNat (value / 256 ^ length)] := by
  rw [encode, List.range_succ, List.map_append]
  rfl

theorem decode_encode (length value : Nat) :
    decode (encode length value) = value % 256 ^ length := by
  induction length generalizing value with
  | zero => rw [encode_zero, decode_nil, Nat.pow_zero, Nat.mod_one]
  | succ length induction =>
      have digit : (UInt8.ofNat value).toNat = value % 256 :=
        UInt8.toNat_ofNat'
      rw [encode_succ, decode_cons, induction, digit, Nat.pow_succ,
        Nat.mul_comm (256 ^ length), Nat.mod_mul]

theorem decode_encode_of_lt (fits : value < 256 ^ length) :
    decode (encode length value) = value := by
  rw [decode_encode, Nat.mod_eq_of_lt fits]

theorem decode_lt (bytes : List UInt8) :
    decode bytes < 256 ^ bytes.length := by
  have below := Nat.ofDigits_lt_base_pow_length (b := 256) (by decide)
    (l := bytes.map UInt8.toNat) fun digit member => by
      obtain ⟨byte, -, rfl⟩ := List.mem_map.mp member
      exact byte.toNat_lt
  rwa [List.length_map] at below

theorem encode_decode (bytes : List UInt8) :
    encode bytes.length (decode bytes) = bytes := by
  induction bytes with
  | nil => rfl
  | cons first rest induction =>
      have small := first.toNat_lt
      have quotient : (first.toNat + 256 * decode rest) / 256 = decode rest := by
        omega
      have digit : UInt8.ofNat (first.toNat + 256 * decode rest) = first := by
        apply UInt8.toNat.inj
        rw [UInt8.toNat_ofNat']
        omega
      rw [List.length_cons, encode_succ, decode_cons, quotient, digit,
        induction]

theorem ofNat_decode_div (inside : place < bytes.length) :
    UInt8.ofNat (decode bytes / 256 ^ place) = bytes[place] := by
  have digit := @getElem?_encode _ (decode bytes) _ inside
  rw [encode_decode, List.getElem?_eq_getElem inside, Option.some.injEq]
    at digit
  exact digit.symm

end LittleEndian
