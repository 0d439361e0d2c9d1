import Mathlib.Data.Finset.Card
import Mathlib.Data.List.Nodup
import Mathlib.Logic.Function.Basic
import Mathlib.Tactic.Common

/-!
# Polls

A poll is a list of ballots, each cast from a seat for a choice.  Votes are
counted by a key of the choice.  Where no seat votes twice and the key tells
choices apart, the count of a key is a number of distinct seats that agree.
-/

namespace Poll

variable {Choice Key : Type}

structure Ballot (Choice : Type) where
  seat : Nat
  choice : Choice
  deriving DecidableEq, Repr

/-- The seats that voted, in order. -/
def seats (ballots : List (Ballot Choice)) : List Nat :=
  ballots.map Ballot.seat

/-- The set of seats that voted for a choice. -/
def seatsFor [DecidableEq Choice] (ballots : List (Ballot Choice))
    (choice : Choice) : Finset Nat :=
  (seats (ballots.filter fun ballot => ballot.choice = choice)).toFinset

/-- The number of votes for choices with a given key. -/
def votesFor [DecidableEq Key] (keyOf : Choice → Key)
    (ballots : List (Ballot Choice)) (key : Key) : Nat :=
  ballots.countP fun ballot => keyOf ballot.choice = key

variable {keyOf : Choice → Key} {ballots : List (Ballot Choice)}
  {ballot : Ballot Choice} {choice : Choice} {key : Key}

@[simp] theorem seats_concat :
    seats (ballots ++ [ballot]) = seats ballots ++ [ballot.seat] := by
  simp [seats]

@[simp] theorem length_seats : (seats ballots).length = ballots.length :=
  List.length_map ..

theorem seats_nodup_concat (nodup : (seats ballots).Nodup)
    (fresh : ballot.seat ∉ seats ballots) :
    (seats (ballots ++ [ballot])).Nodup := by
  rw [seats_concat, ← List.concat_eq_append]
  exact List.Nodup.concat fresh nodup

section Count

variable [DecidableEq Key]

theorem votesFor_concat : votesFor keyOf (ballots ++ [ballot]) key =
    votesFor keyOf ballots key +
      if keyOf ballot.choice = key then 1 else 0 := by
  simp [votesFor]

theorem votesFor_eq_zero (unknown : ∀ ballot ∈ ballots,
    keyOf ballot.choice ≠ key) : votesFor keyOf ballots key = 0 := by
  simpa [votesFor] using unknown

theorem votesFor_le_length : votesFor keyOf ballots key ≤ ballots.length :=
  List.countP_le_length

theorem votesFor_le_append (later : List (Ballot Choice)) :
    votesFor keyOf ballots key ≤ votesFor keyOf (ballots ++ later) key := by
  rw [votesFor, votesFor, List.countP_append]
  exact Nat.le_add_right _ _

theorem votesFor_perm {other : List (Ballot Choice)}
    (reordered : ballots.Perm other) :
    votesFor keyOf ballots key = votesFor keyOf other key :=
  reordered.countP_eq _

theorem votesFor_add_le {other : Key} (apart : key ≠ other) :
    votesFor keyOf ballots key + votesFor keyOf ballots other ≤
      ballots.length := by
  rw [List.length_eq_countP_add_countP
    fun ballot => decide (keyOf ballot.choice = key)]
  apply Nat.add_le_add_left
  apply List.countP_mono_left
  intro ballot _ keyed
  rw [decide_eq_true_eq] at keyed ⊢
  rw [keyed, decide_eq_true_eq]
  exact apart.symm

theorem key_unique {quorum : Nat} {other : Key}
    (majority : ballots.length < 2 * quorum)
    (reached : quorum ≤ votesFor keyOf ballots key)
    (alsoReached : quorum ≤ votesFor keyOf ballots other) : key = other := by
  by_contra apart
  have both : votesFor keyOf ballots key + votesFor keyOf ballots other ≤
      ballots.length := votesFor_add_le apart
  omega

/-- Where no seat votes twice, the votes for the key of a choice come from as
many seats. -/
theorem card_seatsFor [DecidableEq Choice]
    (injective : Function.Injective keyOf) (nodup : (seats ballots).Nodup) :
    (seatsFor ballots choice).card =
      votesFor keyOf ballots (keyOf choice) := by
  have distinct : (seats (ballots.filter fun ballot =>
      ballot.choice = choice)).Nodup :=
    nodup.sublist (List.filter_sublist.map _)
  rw [seatsFor, List.toFinset_card_of_nodup distinct, length_seats, votesFor,
    List.countP_eq_length_filter]
  simp only [injective.eq_iff]

/-- The votes for a key are at least the seats that all cast one. -/
theorem le_votesFor {agreeing : Finset Nat}
    (cast : ∀ seat ∈ agreeing, ∃ ballot ∈ ballots,
      ballot.seat = seat ∧ keyOf ballot.choice = key) :
    agreeing.card ≤ votesFor keyOf ballots key := by
  have seen : agreeing ⊆ (seats (ballots.filter fun ballot =>
      keyOf ballot.choice = key)).toFinset := by
    intro seat agrees
    obtain ⟨ballot, member, rfl, keyed⟩ := cast seat agrees
    rw [List.mem_toFinset]
    exact List.mem_map_of_mem
      (List.mem_filter.mpr ⟨member, decide_eq_true keyed⟩)
  calc
    agreeing.card ≤ _ := Finset.card_le_card seen
    _ ≤ _ := List.toFinset_card_le _
    _ = votesFor keyOf ballots key := by
      rw [length_seats, votesFor, List.countP_eq_length_filter]

/-- The votes for a key and the seats that vote for no such choice are
different seats. -/
theorem votesFor_add_card_le {seatCount : Nat} {others : Finset Nat}
    (nodup : (seats ballots).Nodup)
    (inside : ∀ ballot ∈ ballots, ballot.seat < seatCount)
    (seated : ∀ seat ∈ others, seat < seatCount)
    (apart : ∀ ballot ∈ ballots, keyOf ballot.choice = key →
      ballot.seat ∉ others) :
    votesFor keyOf ballots key + others.card ≤ seatCount := by
  have distinct : (seats (ballots.filter fun ballot =>
      keyOf ballot.choice = key)).Nodup :=
    nodup.sublist (List.filter_sublist.map _)
  have counted : votesFor keyOf ballots key = (seats (ballots.filter
      fun ballot => keyOf ballot.choice = key)).toFinset.card := by
    rw [List.toFinset_card_of_nodup distinct, length_seats, votesFor,
      List.countP_eq_length_filter]
  have disjoint : Disjoint (seats (ballots.filter fun ballot =>
      keyOf ballot.choice = key)).toFinset others := by
    rw [Finset.disjoint_left]
    intro seat voted
    obtain ⟨ballot, member, rfl⟩ :=
      List.mem_map.mp (List.mem_toFinset.mp voted)
    obtain ⟨cast, keyed⟩ := List.mem_filter.mp member
    exact apart ballot cast (of_decide_eq_true keyed)
  rw [counted, ← Finset.card_union_of_disjoint disjoint]
  refine (Finset.card_le_card ?_).trans_eq (Finset.card_range seatCount)
  intro seat member
  rw [Finset.mem_range]
  rcases Finset.mem_union.mp member with voted | other
  · obtain ⟨ballot, listed, rfl⟩ :=
      List.mem_map.mp (List.mem_toFinset.mp voted)
    exact inside ballot (List.mem_filter.mp listed).1
  · exact seated seat other

end Count

end Poll
