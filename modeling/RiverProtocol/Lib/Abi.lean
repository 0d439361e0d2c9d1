import RiverProtocol.Lib.LittleEndian

/-!
# Messages of calls

A message starts with the four bytes that select a function, then the words of
its arguments.  A message too short to select a function falls through, but
still has a signature, padded with zeros.
-/

namespace Abi

/-- The number of these bytes, the most significant first. -/
def ofBytes (bytes : List UInt8) : Nat := LittleEndian.decode bytes.reverse

def toBytes (length value : Nat) : List UInt8 :=
  (LittleEndian.encode length value).reverse

/-- `msg.sig` -/
def signature (message : List UInt8) : Nat :=
  ofBytes ((message ++ List.replicate 4 0).take 4)

/-- The word whose first byte is the one at an offset. -/
def wordAt (message : List UInt8) (offset : Nat) : Option Nat :=
  if offset + 32 ≤ message.length then
    some (ofBytes ((message.drop offset).take 32))
  else none

/-- The message that selects a function with these argument words. -/
def encode (selector : Nat) (words : List Nat) : List UInt8 :=
  toBytes 4 selector ++ words.flatMap (toBytes 32)

/-- The functions of a contract, with their selectors. -/
structure Interface (Function : Type) where
  functions : List Function
  selector : Function → Nat

/-- The function a message selects. -/
def Interface.called {Function : Type} (interface : Interface Function)
    (message : List UInt8) : Option Function :=
  if message.length < 4 then none
  else interface.functions.find? fun function =>
    interface.selector function = signature message

variable {message rest : List UInt8} {length value selector : Nat}

@[simp] theorem length_toBytes : (toBytes length value).length = length := by
  rw [toBytes, List.length_reverse, LittleEndian.length_encode]

theorem ofBytes_toBytes (fits : value < 256 ^ length) :
    ofBytes (toBytes length value) = value := by
  rw [ofBytes, toBytes, List.reverse_reverse,
    LittleEndian.decode_encode_of_lt fits]

theorem toBytes_ofBytes (bytes : List UInt8) :
    toBytes bytes.length (ofBytes bytes) = bytes := by
  rw [toBytes, ofBytes, ← List.length_reverse, LittleEndian.encode_decode,
    List.reverse_reverse]

theorem ofBytes_injective {one other : List UInt8}
    (length : one.length = other.length) (same : ofBytes one = ofBytes other) :
    one = other := by
  rw [← toBytes_ofBytes one, length, same, toBytes_ofBytes]

theorem ofBytes_append (first second : List UInt8) :
    ofBytes (first ++ second) =
      ofBytes first * 256 ^ second.length + ofBytes second := by
  rw [ofBytes, ofBytes, ofBytes, List.reverse_append,
    LittleEndian.decode_append, List.length_reverse, Nat.add_comm,
    Nat.mul_comm]

theorem ofBytes_zeros (count : Nat) :
    ofBytes (List.replicate count 0) = 0 := by
  rw [ofBytes, List.reverse_replicate]
  induction count with
  | zero => rfl
  | succ count induction =>
      rw [List.replicate_succ, LittleEndian.decode_cons, induction]
      rfl

/-- The last byte of a short message's signature is padding. -/
theorem signature_of_short (short : message.length < 4) :
    signature message % 256 = 0 := by
  have last : ∃ first : List UInt8,
      (message ++ List.replicate 4 0).take 4 = first ++ [0] := by
    match message, short with
    | [], _ => exact ⟨[0, 0, 0], rfl⟩
    | [first], _ => exact ⟨[first, 0, 0], rfl⟩
    | [first, second], _ => exact ⟨[first, second, 0], rfl⟩
    | [first, second, third], _ => exact ⟨[first, second, third], rfl⟩
  obtain ⟨first, padded⟩ := last
  rw [signature, padded, ofBytes, List.reverse_append, List.reverse_singleton,
    List.singleton_append, LittleEndian.decode_cons]
  exact Nat.add_mul_mod_self_left _ _ _

variable {Function : Type} {interface : Interface Function}
  {function : Function}

theorem Interface.selector_of_called
    (called : interface.called message = some function) :
    interface.selector function = signature message := by
  rw [Interface.called] at called
  split at called
  · cases called
  · have selected := List.find?_some called
    exact of_decide_eq_true selected

/-- A message that selects no function has the selector of none, or is too
short. -/
theorem Interface.called_eq_none (missed : interface.called message = none)
    (long : 4 ≤ message.length) :
    ∀ function ∈ interface.functions,
      interface.selector function ≠ signature message := by
  rw [Interface.called, if_neg (Nat.not_lt.mpr long), List.find?_eq_none]
    at missed
  exact fun function member same =>
    missed function member (decide_eq_true same)

theorem Interface.called_of_mem
    (distinct : ∀ one ∈ interface.functions, ∀ other ∈ interface.functions,
      interface.selector one = interface.selector other → one = other)
    (member : function ∈ interface.functions) (long : 4 ≤ message.length)
    (selected : interface.selector function = signature message) :
    interface.called message = some function := by
  cases called : interface.called message with
  | none =>
      exact absurd selected
        (interface.called_eq_none called long function member)
  | some other =>
      have same := interface.selector_of_called called
      rw [Interface.called, if_neg (Nat.not_lt.mpr long)] at called
      rw [distinct other (List.mem_of_find?_eq_some called) function member
        (same.trans selected.symm)]

end Abi
