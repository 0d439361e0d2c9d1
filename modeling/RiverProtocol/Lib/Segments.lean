import Mathlib.Algebra.BigOperators.Group.List.Basic
import Mathlib.Data.Nat.ModEq
import Mathlib.Tactic.Common

/-!
# Segments of a line and pro rata shares

Half-open segments `[low, high)` of the natural numbers are laid against a
fixed segment `[start, stop)`.  The part a segment covers is the difference of
what lies before its two ends, so the parts covered by consecutive segments
telescope.  An amount attached to the fixed segment is handed out pro rata,
each share rounded down.
-/

namespace Segments

/-- The length of `[low, high) ∩ [start, stop)`. -/
def overlap (low high start stop : Nat) : Nat :=
  min high stop - max low start

/-- The length of `[0, position) ∩ [start, stop)`. -/
def before (start stop position : Nat) : Nat :=
  min position stop - start

theorem overlap_le_before {low high start stop position : Nat}
    (ordered : position ≤ low) :
    before start stop position + overlap low high start stop ≤
      before start stop (max high position) := by
  unfold before overlap
  omega

theorem before_le {start stop position : Nat} :
    before start stop position ≤ stop - start := by
  unfold before
  omega

theorem overlap_eq_zero_of_le {low high start stop : Nat}
    (apart : stop ≤ low) : overlap low high start stop = 0 := by
  unfold overlap
  omega

/-- What is left of a segment that begins at the end of the fixed one covers
nothing of it. -/
theorem overlap_of_start_ge {low high start stop : Nat}
    (inside : start ≤ low) :
    overlap low high start stop = min high stop - low := by
  unfold overlap
  omega

/-- Weights bounded by the increments of a function sum to at most its total
increment. -/
theorem sum_le_of_increments {α : Type} (items : List α) (weight : α → Nat)
    (total : Nat → Nat)
    (increment : ∀ index item, items[index]? = some item →
      total index + weight item ≤ total (index + 1)) :
    total 0 + (items.map weight).sum ≤ total items.length := by
  induction items generalizing total with
  | nil => simp
  | cons item items induction =>
      have head : total 0 + weight item ≤ total 1 :=
        increment 0 item (by simp)
      have tail := induction (fun index => total (index + 1))
        (fun index later found => increment (index + 1) later (by simpa))
      simp only [Nat.zero_add] at tail
      simp only [List.map_cons, List.sum_cons, List.length_cons]
      omega

/-- A segment that was cut no farther than to the fixed one covers what it
covered before. -/
theorem before_add_overlap {low high start stop cut : Nat} (grows : low ≤ high)
    (kept : low ≤ cut) (few : cut ≤ max low start) :
    before start stop low + overlap cut high start stop =
      before start stop high := by
  unfold before overlap
  omega

/-- Cutting a segment short inside one of two disjoint segments covers the
other as before. -/
theorem overlap_of_apart {low high start stop left right cut : Nat}
    (inside : left ≤ low) (moved : low ≤ cut) (within : cut ≤ right)
    (apart : stop ≤ left ∨ right ≤ start) :
    overlap cut high start stop = overlap low high start stop := by
  unfold overlap
  omega

theorem sum_eq_of_increments {α : Type} (items : List α) (weight : α → Nat)
    (total : Nat → Nat)
    (increment : ∀ index item, items[index]? = some item →
      total index + weight item = total (index + 1)) :
    total 0 + (items.map weight).sum = total items.length := by
  induction items generalizing total with
  | nil => simp
  | cons item items induction =>
      have head : total 0 + weight item = total 1 :=
        increment 0 item (by simp)
      have tail := induction (fun index => total (index + 1))
        (fun index later found => increment (index + 1) later (by simpa))
      simp only [Nat.zero_add] at tail
      simp only [List.map_cons, List.sum_cons, List.length_cons]
      omega

/-- The share of `value` that `part` units out of `whole` receive. -/
def prorated (value whole part : Nat) : Nat := part * value / whole

@[simp] theorem prorated_zero (value whole : Nat) :
    prorated value whole 0 = 0 := by
  simp [prorated]

theorem prorated_mono {value whole part larger : Nat}
    (bound : part ≤ larger) :
    prorated value whole part ≤ prorated value whole larger :=
  Nat.div_le_div_right (Nat.mul_le_mul_right value bound)

theorem prorated_le_value (value : Nat) {whole part : Nat}
    (bound : part ≤ whole) : prorated value whole part ≤ value :=
  Nat.div_le_of_le_mul (Nat.mul_le_mul_right value bound)

theorem lt_prorated {value whole part : Nat} (positive : 0 < whole) :
    value * part < whole * (prorated value whole part + 1) := by
  rw [Nat.mul_comm value]
  exact Nat.lt_mul_div_succ _ positive

theorem prorated_add_le (value whole part other : Nat) :
    prorated value whole part + prorated value whole other ≤
      prorated value whole (part + other) := by
  unfold prorated
  rw [Nat.add_mul]
  exact Nat.div_add_div_le_add_div

theorem sum_prorated_le {α : Type} (value whole : Nat) (part : α → Nat)
    (items : List α) :
    (items.map fun item => prorated value whole (part item)).sum ≤
      prorated value whole (items.map part).sum := by
  induction items with
  | nil => simp
  | cons item items induction =>
      simp only [List.map_cons, List.sum_cons]
      calc
        prorated value whole (part item) + _ ≤
            prorated value whole (part item) +
              prorated value whole (items.map part).sum :=
          Nat.add_le_add_left induction _
        _ ≤ _ := prorated_add_le _ _ _ _

end Segments
