import Mathlib.Data.List.Perm.Basic
import Mathlib.Data.List.Nodup
import Mathlib.Logic.Function.Basic
import Mathlib.Tactic.Common

/-!
# Removing entries by swapping with the last one

A removed entry is overwritten by the last one, whose position is blanked.
Where the removed positions come in strictly descending order, no later
removal reads a position that an earlier one wrote, and the entries that
remain are those at the other positions.
-/

namespace SwapRemove

variable {α : Type}

/-- The last of `count` entries takes the place of one of them. -/
def removeAt (blank : α) (entries : Nat → α) (count index : Nat) : Nat → α :=
  Function.update (Function.update entries index (entries (count - 1)))
    (count - 1) blank

/-- Entries are removed one after another. -/
def removeEach (blank : α) : (Nat → α) → (count : Nat) → List Nat → Nat → α
  | entries, _, [] => entries
  | entries, count, index :: rest =>
    removeEach blank (removeAt blank entries count index) (count - 1) rest

/-- Strictly descending positions among `count` entries. -/
structure Removable (count : Nat) (indexes : List Nat) : Prop where
  descending : indexes.Pairwise (· > ·)
  below : ∀ index ∈ indexes, index < count

variable {blank : α} {entries : Nat → α} {count index position : Nat}
  {indexes : List Nat}

theorem removeAt_last :
    removeAt blank entries count index (count - 1) = blank :=
  Function.update_self _ _ _

theorem removeAt_moved (notLast : index ≠ count - 1) :
    removeAt blank entries count index index = entries (count - 1) := by
  rw [removeAt, Function.update_of_ne notLast, Function.update_self]

theorem removeAt_kept (notIndex : position ≠ index)
    (notLast : position ≠ count - 1) :
    removeAt blank entries count index position = entries position := by
  rw [removeAt, Function.update_of_ne notLast,
    Function.update_of_ne notIndex]

theorem Removable.tail {rest : List Nat}
    (removable : Removable count (index :: rest)) :
    Removable (count - 1) rest := by
  obtain ⟨descending, below⟩ := removable
  rw [List.pairwise_cons] at descending
  refine ⟨descending.2, ?_⟩
  intro next member
  have less := descending.1 next member
  have inside := below index List.mem_cons_self
  omega

/-- A removal writes no position that is removed later. -/
theorem removeAt_later {rest : List Nat}
    (removable : Removable count (index :: rest)) (later : position ∈ rest) :
    removeAt blank entries count index position = entries position := by
  have inside := removable.below index List.mem_cons_self
  have less := (List.pairwise_cons.mp removable.descending).1 position later
  exact removeAt_kept (by omega) (by omega)

theorem removable_cons {rest : List Nat} :
    Removable count (index :: rest) ↔ index < count ∧
      (∀ next ∈ rest.head?, next < index) ∧ Removable (count - 1) rest := by
  constructor
  · intro removable
    refine ⟨removable.below index List.mem_cons_self, ?_, removable.tail⟩
    intro next first
    exact (List.pairwise_cons.mp removable.descending).1 next
      (List.mem_of_mem_head? first)
  · rintro ⟨inside, next, removable⟩
    have smaller : ∀ later ∈ rest, later < index := by
      intro later member
      cases rest with
      | nil => cases member
      | cons second others =>
          have second_lt := next second rfl
          cases List.mem_cons.mp member with
          | inl same => exact same ▸ second_lt
          | inr member =>
              have less := (List.pairwise_cons.mp removable.descending).1
                later member
              omega
    refine ⟨List.pairwise_cons.mpr ⟨smaller, removable.descending⟩, ?_⟩
    intro later member
    cases List.mem_cons.mp member with
    | inl same => exact same ▸ inside
    | inr member => exact Nat.lt_trans (smaller later member) inside

theorem Removable.last_le {last : Nat} (removable : Removable count indexes)
    (final : indexes.getLast? = some last) :
    ∀ index ∈ indexes, last ≤ index := by
  intro index member
  have descending := removable.descending
  rw [← List.dropLast_append_getLast? last final] at descending member
  cases List.mem_append.mp member with
  | inl earlier =>
      exact Nat.le_of_lt ((List.pairwise_append.mp descending).2.2 index
        earlier last (List.mem_singleton_self last))
  | inr same => exact Nat.le_of_eq (List.mem_singleton.mp same).symm

theorem Removable.length_le (removable : Removable count indexes) :
    indexes.length ≤ count := by
  induction indexes generalizing count with
  | nil => exact Nat.zero_le _
  | cons index rest induction =>
      have inside := removable.below index List.mem_cons_self
      have shorter := induction removable.tail
      rw [List.length_cons]
      omega

/-- The positions from a removed one on leave room for the ones before it in
the list. -/
theorem Removable.smallest_add_length {smallest : Nat}
    (removable : Removable count indexes) (nonempty : indexes ≠ [])
    (least : ∀ index ∈ indexes, smallest ≤ index) :
    smallest + indexes.length ≤ count := by
  induction indexes generalizing count with
  | nil => exact absurd rfl nonempty
  | cons index rest induction =>
      have inside := removable.below index List.mem_cons_self
      have above := least index List.mem_cons_self
      rw [List.length_cons]
      by_cases single : rest = []
      · rw [single, List.length_nil]
        omega
      · have shorter := induction removable.tail single
          fun next member => least next (List.mem_cons_of_mem _ member)
        omega

theorem removeEach_below (removable : Removable count indexes)
    (smaller : ∀ index ∈ indexes, position < index) :
    removeEach blank entries count indexes position = entries position := by
  induction indexes generalizing entries count with
  | nil => rfl
  | cons index rest induction =>
      have inside := removable.below index List.mem_cons_self
      have less := smaller index List.mem_cons_self
      rw [removeEach, induction removable.tail fun next member =>
        smaller next (List.mem_cons_of_mem _ member)]
      exact removeAt_kept (by omega) (by omega)

theorem removeEach_beyond (removable : Removable count indexes)
    (beyond : count ≤ position) :
    removeEach blank entries count indexes position = entries position := by
  induction indexes generalizing entries count with
  | nil => rfl
  | cons index rest induction =>
      have inside := removable.below index List.mem_cons_self
      rw [removeEach, induction removable.tail (by omega)]
      exact removeAt_kept (by omega) (by omega)

theorem removeEach_blank (removable : Removable count indexes)
    (freed : count ≤ position + indexes.length) (inside : position < count) :
    removeEach blank entries count indexes position = blank := by
  induction indexes generalizing entries count with
  | nil =>
      rw [List.length_nil] at freed
      omega
  | cons index rest induction =>
      rw [List.length_cons] at freed
      rw [removeEach]
      by_cases last : position = count - 1
      · rw [removeEach_beyond removable.tail (by omega), last]
        exact removeAt_last
      · exact induction removable.tail (by omega) (by omega)

/-- The positions that are not removed. -/
def kept (count : Nat) (indexes : List Nat) : List Nat :=
  (List.range count).filter (· ∉ indexes)

theorem mem_kept :
    position ∈ kept count indexes ↔ position < count ∧ position ∉ indexes := by
  rw [kept, List.mem_filter, List.mem_range, decide_eq_true_eq]

theorem nodup_kept : (kept count indexes).Nodup :=
  List.nodup_range.filter _

theorem kept_cons_perm (inside : index < count) (fresh : index ∉ indexes) :
    (kept count indexes).Perm (index :: kept count (index :: indexes)) := by
  have absent : index ∉ kept count (index :: indexes) := by
    rw [mem_kept]
    exact fun held => held.2 List.mem_cons_self
  rw [List.perm_ext_iff_of_nodup nodup_kept
    (List.nodup_cons.mpr ⟨absent, nodup_kept⟩)]
  intro position
  simp only [mem_kept, List.mem_cons, not_or]
  by_cases same : position = index
  · subst same
    simp [inside, fresh]
  · simp [same]

theorem kept_succ (fresh : count ∉ indexes) :
    kept (count + 1) indexes = kept count indexes ++ [count] := by
  rw [kept, List.range_succ, List.filter_append, ← kept,
    List.filter_singleton, decide_eq_true fresh, cond_true]

theorem kept_succ_removed (removed : count ∈ indexes) :
    kept (count + 1) indexes = kept count indexes := by
  rw [kept, List.range_succ, List.filter_append, ← kept,
    List.filter_singleton, decide_eq_false (not_not_intro removed),
    cond_false, List.append_nil]

/-- One removal permutes the entries that remain. -/
theorem removeAt_perm {rest : List Nat}
    (removable : Removable count (index :: rest)) :
    ((kept (count - 1) rest).map (removeAt blank entries count index)).Perm
      ((kept count (index :: rest)).map entries) := by
  have inside := removable.below index List.mem_cons_self
  have smaller := (List.pairwise_cons.mp removable.descending).1
  obtain ⟨last, rfl⟩ : ∃ last, count = last + 1 :=
    ⟨count - 1, by omega⟩
  have unwritten : ∀ position ∈ kept last (index :: rest),
      removeAt blank entries (last + 1) index position = entries position := by
    intro position member
    obtain ⟨below, absent⟩ := mem_kept.mp member
    refine removeAt_kept ?_ (by omega)
    rintro rfl
    exact absent List.mem_cons_self
  have fresh : index ∉ rest := fun member =>
    absurd (smaller index member) (Nat.lt_irrefl index)
  rw [Nat.add_sub_cancel]
  by_cases final : index = last
  · subst final
    rw [kept_succ_removed List.mem_cons_self, ← List.map_congr_left unwritten]
    have same : kept index rest = kept index (index :: rest) := by
      refine List.filter_congr fun position member => ?_
      have less := List.mem_range.mp member
      simp only [List.mem_cons, not_or, Nat.ne_of_lt less, not_false_eq_true,
        true_and]
    rw [same]
  · have above : last ∉ index :: rest := by
      intro member
      cases List.mem_cons.mp member with
      | inl same => exact final same.symm
      | inr later =>
          have less := smaller last later
          omega
    rw [kept_succ above, List.map_append, List.map_singleton]
    have others : (kept last rest).Perm _ := kept_cons_perm (by omega) fresh
    have moved := others.map (removeAt blank entries (last + 1) index)
    rw [List.map_cons, removeAt_moved (by omega), Nat.add_sub_cancel,
      List.map_congr_left unwritten] at moved
    exact moved.trans (List.perm_append_singleton _ _).symm

/-- The entries that remain are those at the positions not removed. -/
theorem removeEach_perm (removable : Removable count indexes) :
    ((List.range (count - indexes.length)).map
        (removeEach blank entries count indexes)).Perm
      ((kept count indexes).map entries) := by
  induction indexes generalizing entries count with
  | nil =>
      have whole : kept count [] = List.range count :=
        List.filter_eq_self.mpr fun _ _ => rfl
      rw [whole]
      exact List.Perm.refl _
  | cons index rest induction =>
      have remaining : ((List.range (count - 1 - rest.length)).map
          (removeEach blank (removeAt blank entries count index) (count - 1)
            rest)).Perm _ := induction removable.tail
      rw [List.length_cons, Nat.add_comm, ← Nat.sub_sub]
      exact remaining.trans (removeAt_perm removable)

theorem removeEach_origin (removable : Removable count indexes)
    (remaining : position < count - indexes.length) :
    ∃ origin < count, removeEach blank entries count indexes position =
      entries origin := by
  have member : removeEach blank entries count indexes position ∈ _ :=
    (removeEach_perm removable).mem_iff.mp
      (List.mem_map_of_mem (List.mem_range.mpr remaining))
  obtain ⟨origin, held, same⟩ := List.mem_map.mp member
  exact ⟨origin, (mem_kept.mp held).1, same.symm⟩

end SwapRemove
