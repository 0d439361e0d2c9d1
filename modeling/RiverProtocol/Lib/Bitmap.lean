import Mathlib.Data.Finset.Card
import Mathlib.Tactic.Common

/-!
# Sets of small numbers in one word

The set bits of a word are a finite set of numbers below its width.  Setting a
bit inserts a number; a mask that was shifted out of the word is zero, so a
test against it always succeeds and setting it changes nothing.
-/

namespace Bitmap

variable {width : Nat}

/-- The word in which only the bit `index` is set, or zero outside the
width. -/
def mask (width index : Nat) : BitVec width :=
  BitVec.ofNat width 1 <<< index

/-- The positions of the set bits. -/
def members (word : BitVec width) : Finset Nat :=
  (Finset.range width).filter fun index => word.getLsbD index = true

variable {word : BitVec width} {index position : Nat}

theorem mem_members :
    position ∈ members word ↔ word.getLsbD position = true := by
  unfold members
  rw [Finset.mem_filter, Finset.mem_range]
  exact and_iff_right_of_imp BitVec.lt_of_getLsbD

theorem card_members_le (word : BitVec width) :
    (members word).card ≤ width :=
  (Finset.card_filter_le _ _).trans_eq (Finset.card_range width)

theorem members_zero : members (0 : BitVec width) = ∅ := by
  ext position
  simp [mem_members]

theorem getLsbD_mask : (mask width index).getLsbD position = true ↔
    position = index ∧ index < width := by
  rw [mask, ← BitVec.twoPow_eq, BitVec.getLsbD_twoPow, Bool.and_eq_true,
    decide_eq_true_eq, decide_eq_true_eq, eq_comm (a := index), and_comm]

theorem members_or_mask (inside : index < width) :
    members (word ||| mask width index) = insert index (members word) := by
  ext position
  rw [Finset.mem_insert, mem_members, mem_members, BitVec.getLsbD_or,
    Bool.or_eq_true, getLsbD_mask, or_comm]
  exact or_congr_left (and_iff_left inside)

theorem and_mask_eq_iff : word &&& mask width index = mask width index ↔
    (index < width → index ∈ members word) := by
  constructor
  · intro covered inside
    have marked := getLsbD_mask.mpr ⟨rfl, inside⟩
    rw [← covered, BitVec.getLsbD_and, Bool.and_eq_true] at marked
    exact mem_members.mpr marked.1
  · intro member
    apply BitVec.eq_of_getLsbD_eq
    intro position _
    rw [BitVec.getLsbD_and, Bool.and_eq_right_iff_imp]
    intro marked
    obtain ⟨rfl, inside⟩ := getLsbD_mask.mp marked
    exact mem_members.mp (member inside)

end Bitmap
