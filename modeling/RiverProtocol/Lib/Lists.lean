import Mathlib.Algebra.BigOperators.Group.Finset.Basic
import Mathlib.Algebra.BigOperators.Intervals
import Mathlib.Data.List.Forall2
import Mathlib.Tactic.Common

/-!
# Lists that grow at their end and are written in place
-/

namespace Lists

variable {α : Type}

theorem getElem?_concat_cases {items : List α} {last item : α} {index : Nat}
    (found : (items ++ [last])[index]? = some item) :
    items[index]? = some item ∨ (index = items.length ∧ item = last) := by
  rw [List.getElem?_append] at found
  split at found
  · exact .inl found
  · have inside : index - items.length = 0 := by
      have := (List.getElem?_eq_some_iff.mp found).1
      simpa using this
    rw [inside] at found
    exact .inr ⟨by omega, by simpa using found.symm⟩

theorem getElem?_set_cases {items : List α} {written item : α}
    {index position : Nat}
    (found : (items.set index written)[position]? = some item) :
    (position ≠ index ∧ items[position]? = some item) ∨
      (position = index ∧ item = written) := by
  by_cases same : index = position
  · subst same
    rw [List.getElem?_set_self' ] at found
    cases old : items[index]? with
    | none => simp [old] at found
    | some _ => exact .inr ⟨rfl, by simpa [old] using found.symm⟩
  · rw [List.getElem?_set_ne same] at found
    exact .inl ⟨Ne.symm same, found⟩

theorem sum_take_succ {items : List Nat} {index item : Nat}
    (found : items[index]? = some item) :
    (items.take (index + 1)).sum = (items.take index).sum + item := by
  rw [List.take_add_one, found]
  simp

theorem sum_take_mono (items : List Nat) {index later : Nat}
    (ordered : index ≤ later) :
    (items.take index).sum ≤ (items.take later).sum := by
  obtain ⟨extra, rfl⟩ := Nat.exists_eq_add_of_le ordered
  rw [List.take_add, List.sum_append]
  exact Nat.le_add_right _ _

theorem sum_take_le (items : List Nat) (index : Nat) :
    (items.take index).sum ≤ items.sum := by
  conv_rhs => rw [← List.take_append_drop index items, List.sum_append]
  exact Nat.le_add_right _ _

theorem sum_map_set (weight : α → Nat) {items : List α} {index : Nat}
    {old : α} (new : α) (found : items[index]? = some old) :
    ((items.set index new).map weight).sum + weight old =
      (items.map weight).sum + weight new := by
  induction items generalizing index with
  | nil => simp at found
  | cons item items induction =>
      cases index with
      | zero =>
          simp only [List.getElem?_cons_zero, Option.some.injEq] at found
          subst found
          simp only [List.set_cons_zero, List.map_cons, List.sum_cons]
          omega
      | succ index =>
          have tail := @induction index (by simpa using found)
          simp only [List.set_cons_succ, List.map_cons, List.sum_cons]
          omega

theorem forall_mem_concat {property : α → Prop} {items : List α} {last : α}
    (old : ∀ item ∈ items, property item) (new : property last) :
    ∀ item ∈ items ++ [last], property item := by
  intro item member
  cases List.mem_append.mp member with
  | inl kept => exact old item kept
  | inr same =>
      rw [List.mem_singleton.mp same]
      exact new

theorem forall_mem_set {property : α → Prop} {items : List α} {index : Nat}
    {written : α} (old : ∀ item ∈ items, property item)
    (new : property written) : ∀ item ∈ items.set index written,
      property item := by
  intro item member
  cases List.mem_or_eq_of_mem_set member with
  | inl kept => exact old item kept
  | inr same => exact same ▸ new

/-- Weights of a prefix next to a charge for every position, each pair within
the capacity of its item. -/
theorem sum_range_add_sum_take_le (items : List α)
    (weight capacity : α → Nat) (charge : Nat → Nat) (count : Nat)
    (bound : ∀ index item, items[index]? = some item →
      charge index + (if index < count then weight item else 0) ≤
        capacity item) :
    ∑ index ∈ Finset.range items.length, charge index +
        ((items.take count).map weight).sum ≤
      (items.map capacity).sum := by
  induction items generalizing charge count with
  | nil => simp
  | cons item items induction =>
      have head := bound 0 item (by simp)
      have tail := induction (fun index => charge (index + 1)) (count - 1)
        (by
          intro index later found
          have next := bound (index + 1) later (by simpa using found)
          have same : index < count - 1 ↔ index + 1 < count := by omega
          simpa only [same] using next)
      rw [List.length_cons, Finset.sum_range_succ']
      cases count with
      | zero =>
          simp only [List.take_zero, List.map_nil, List.sum_nil,
            List.map_cons, List.sum_cons] at head tail ⊢
          omega
      | succ count =>
          simp only [List.take_succ_cons, List.map_cons, List.sum_cons,
            Nat.add_sub_cancel, Nat.zero_lt_succ, if_true] at head tail ⊢
          omega

/-- Items each within a charge for their position and a weight. -/
theorem sum_map_le_sum_range_add (items : List α) (weight size : α → Nat)
    (charge : Nat → Nat)
    (bound : ∀ index item, items[index]? = some item →
      size item ≤ charge index + weight item) :
    (items.map size).sum ≤
      ∑ index ∈ Finset.range items.length, charge index +
        (items.map weight).sum := by
  induction items generalizing charge with
  | nil => simp
  | cons item items induction =>
      have head := bound 0 item (by simp)
      have tail := induction (fun index => charge (index + 1))
        (fun index later found => bound (index + 1) later (by simpa))
      rw [List.length_cons, Finset.sum_range_succ']
      simp only [List.map_cons, List.sum_cons]
      omega

/-- Charges collected by key add up to the charges collected at once, when no
item has a key outside the range. -/
theorem sum_range_keyed (items : List α) (key : α → Option Nat)
    (charge : α → Nat) (count : Nat)
    (inside : ∀ item ∈ items, ∀ index, key item = some index → index < count)
    (keyed : ∀ item ∈ items, key item = none → charge item = 0) :
    ∑ index ∈ Finset.range count,
        (items.map fun item =>
          if key item = some index then charge item else 0).sum =
      (items.map charge).sum := by
  induction items with
  | nil => simp
  | cons item items induction =>
      have tail := induction
        (fun other member => inside other (List.mem_cons_of_mem _ member))
        (fun other member => keyed other (List.mem_cons_of_mem _ member))
      simp only [List.map_cons, List.sum_cons, Finset.sum_add_distrib, tail]
      congr 1
      cases found : key item with
      | none => simp [keyed item List.mem_cons_self found]
      | some index =>
          have member := inside item List.mem_cons_self index found
          simp [member]

theorem take_concat_of_le {items : List α} {last : α} {count : Nat}
    (full : count ≤ items.length) :
    (items ++ [last]).take count = items.take count :=
  List.take_append_of_le_length full

theorem take_concat_of_lt {items : List α} {last : α} {count : Nat}
    (room : items.length < count) :
    (items ++ [last]).take count = items.take count ++ [last] := by
  rw [List.take_of_length_le (by simp; omega),
    List.take_of_length_le (Nat.le_of_lt room)]

theorem exists_related_of_mem {β : Type} {related : α → β → Prop}
    {items : List α} {others : List β} {item : α}
    (each : List.Forall₂ related items others) (member : item ∈ items) :
    ∃ other ∈ others, related item other := by
  induction each with
  | nil => cases member
  | @cons first other _ _ holds _ induction =>
      cases List.mem_cons.mp member with
      | inl same =>
          subst same
          exact ⟨other, List.mem_cons_self, holds⟩
      | inr later =>
          obtain ⟨found, memberFound, related⟩ := induction later
          exact ⟨found, List.mem_cons_of_mem _ memberFound, related⟩

/-- Each item of a history was preceded by what it requires. -/
def EachAfter (required : List α → α → Prop) (items : List α) : Prop :=
  ∀ before item later, items = before ++ item :: later → required before item

variable {required : List α → α → Prop} {items : List α}

theorem eachAfter_nil : EachAfter required ([] : List α) := by
  intro before item later same
  exact absurd same.symm (by simp)

theorem EachAfter.concat {last : α} (each : EachAfter required items)
    (holds : required items last) : EachAfter required (items ++ [last]) := by
  intro before item later same
  rcases List.eq_nil_or_concat' later with rfl | ⟨initial, final, rfl⟩
  · obtain ⟨rfl, rfl⟩ := List.append_singleton_inj.mp same
    exact holds
  · apply each before item initial
    rw [← List.cons_append, ← List.append_assoc] at same
    exact (List.append_singleton_inj.mp same).1

theorem EachAfter.imp {weaker : List α → α → Prop}
    (each : EachAfter required items)
    (implies : ∀ before item, required before item → weaker before item) :
    EachAfter weaker items :=
  fun before item later same => implies before item
    (each before item later same)

theorem EachAfter.append {later : List α} (each : EachAfter required items)
    (free : ∀ item ∈ later, ∀ before, required before item) :
    EachAfter required (items ++ later) := by
  induction later generalizing items with
  | nil => simpa using each
  | cons item later induction =>
      rw [List.append_cons]
      apply induction
      · exact each.concat (free item (List.mem_cons_self ..) items)
      · intro other member
        exact free other (List.mem_cons_of_mem _ member)

end Lists
