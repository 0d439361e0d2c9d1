import Mathlib.Logic.Function.Iterate
import RiverProtocol.Lib.Merkle

/-!
# Hash trees that grow to the right

A tree to which leaves are appended, kept as one node for each height: where
the number of leaves has a one bit, the root of the last full subtree of that
height.  Appending a leaf and computing the root agree with the tree over all
leaves.
-/

namespace Merkle

section

variable (hash : List UInt8 → List UInt8)

/-- The nodes above a list of nodes, an odd last one left out. -/
def pairs : List (List UInt8) → List (List UInt8)
  | [] => []
  | [_] => []
  | left :: right :: rest => hash (left ++ right) :: pairs rest

/-- The nodes above a list of nodes, an odd last one paired with `zero`. -/
def pairsUp (zero : List UInt8) : List (List UInt8) → List (List UInt8)
  | [] => []
  | [last] => [hash (last ++ zero)]
  | left :: right :: rest => hash (left ++ right) :: pairsUp zero rest

/-- The root of an empty subtree. -/
def zeroHash : Nat → List UInt8
  | 0 => zeroChunk
  | height + 1 => hash (zeroHash height ++ zeroHash height)

/-- Appending a node: it moves up while there is a left neighbour. -/
def insertLoop : (remaining height size : Nat) → (node : List UInt8) →
    (branch : Nat → List UInt8) → Option (Nat → List UInt8)
  | 0, _, _, _, _ => none
  | remaining + 1, height, size, node, branch =>
    if size % 2 = 1 then some (Function.update branch height node)
    else insertLoop remaining (height + 1) (size / 2)
      (hash (branch height ++ node)) branch

/-- The root, from the node that covers what is right of the full subtrees. -/
def rootLoop (zeros branch : Nat → List UInt8) :
    (remaining height size : Nat) → (node : List UInt8) → List UInt8
  | 0, _, _, node => node
  | remaining + 1, height, size, node =>
    rootLoop zeros branch remaining (height + 1) (size / 2)
      (if size % 2 = 1 then hash (branch height ++ node)
      else hash (node ++ zeros height))

/-- The nodes of the last full subtrees of the leaves, from a height on. -/
def Frontier (branch : Nat → List UInt8) (height : Nat)
    (nodes : List (List UInt8)) : Prop :=
  ∀ above, ((pairs hash)^[above] nodes).length % 2 = 1 →
    ((pairs hash)^[above] nodes).getLast? = some (branch (height + above))

end

variable {hash : List UInt8 → List UInt8} {zero node : List UInt8}
  {nodes : List (List UInt8)} {branch after : Nat → List UInt8}

theorem length_pairs (nodes : List (List UInt8)) :
    (pairs hash nodes).length = nodes.length / 2 := by
  match nodes with
  | [] => rfl
  | [_] => simp [pairs]
  | left :: right :: rest =>
      rw [pairs, List.length_cons, length_pairs rest, List.length_cons,
        List.length_cons]
      omega

theorem pairs_append_even {nodes : List (List UInt8)}
    (even : nodes.length % 2 = 0) (node : List UInt8) :
    pairs hash (nodes ++ [node]) = pairs hash nodes ∧
      ∀ zero, pairsUp hash zero (nodes ++ [node]) =
        pairs hash nodes ++ [hash (node ++ zero)] := by
  match nodes with
  | [] => exact ⟨rfl, fun _ => rfl⟩
  | [_] => simp at even
  | left :: right :: rest =>
      have shorter : rest.length % 2 = 0 := by
        rw [List.length_cons, List.length_cons] at even
        omega
      obtain ⟨below, up⟩ := pairs_append_even shorter node
      simp only [List.cons_append, pairs, pairsUp, below, up, implies_true,
        and_self]

/-- An odd number of nodes, and one more. -/
theorem pairs_append_odd {nodes : List (List UInt8)} {last : List UInt8}
    (odd : nodes.length % 2 = 1) (ends : nodes.getLast? = some last)
    (node : List UInt8) :
    pairs hash (nodes ++ [node]) = pairs hash nodes ++ [hash (last ++ node)] ∧
      ∀ zero, pairsUp hash zero (nodes ++ [node]) =
        pairs hash nodes ++ [hash (last ++ node)] := by
  match nodes with
  | [] => simp at odd
  | [_] =>
      obtain rfl := Option.some.inj ends
      exact ⟨rfl, fun _ => rfl⟩
  | left :: right :: rest =>
      have shorter : rest.length % 2 = 1 := by
        rw [List.length_cons, List.length_cons] at odd
        omega
      have further : rest.getLast? = some last := by
        match rest, shorter with
        | _ :: _, _ => simpa using ends
      obtain ⟨below, up⟩ := pairs_append_odd shorter further node
      simp only [List.cons_append, pairs, pairsUp, below, up, implies_true,
        and_self]

theorem pairsUp_even {nodes : List (List UInt8)}
    (even : nodes.length % 2 = 0) :
    pairsUp hash zero nodes = pairs hash nodes := by
  match nodes with
  | [] => rfl
  | [_] => simp at even
  | left :: right :: rest =>
      have shorter : rest.length % 2 = 0 := by
        rw [List.length_cons, List.length_cons] at even
        omega
      rw [pairsUp, pairs, pairsUp_even shorter]

theorem pairsUp_append_zero (nodes : List (List UInt8)) :
    pairsUp hash zero (nodes ++ [zero]) =
      if nodes.length % 2 = 0 then
        pairsUp hash zero nodes ++ [hash (zero ++ zero)]
      else pairsUp hash zero nodes := by
  match nodes with
  | [] => rfl
  | [_] => rfl
  | left :: right :: rest =>
      have induction := pairsUp_append_zero rest
      have parity : (rest.length + 1 + 1) % 2 = rest.length % 2 := by omega
      simp only [List.cons_append, pairsUp, induction, List.length_cons,
        parity]
      split <;> rfl

theorem take_pairsUp (count : Nat) (nodes : List (List UInt8)) :
    pairsUp hash zero (nodes.take (2 * count)) =
      (pairsUp hash zero nodes).take count := by
  match count, nodes with
  | 0, _ => simp [pairsUp]
  | _ + 1, [] => rfl
  | count + 1, [_] =>
      rw [Nat.mul_add, Nat.mul_one, List.take_succ_cons, List.take_nil,
        pairsUp, List.take_succ_cons, List.take_nil]
  | count + 1, left :: right :: rest =>
      rw [Nat.mul_add, Nat.mul_one, List.take_succ_cons, List.take_succ_cons,
        pairsUp, pairsUp, take_pairsUp count rest, List.take_succ_cons]

theorem drop_pairsUp (count : Nat) (nodes : List (List UInt8)) :
    pairsUp hash zero (nodes.drop (2 * count)) =
      (pairsUp hash zero nodes).drop count := by
  match count, nodes with
  | 0, _ => rfl
  | _ + 1, [] => rfl
  | count + 1, [_] =>
      rw [Nat.mul_add, Nat.mul_one, List.drop_succ_cons, List.drop_nil,
        pairsUp, pairsUp, List.drop_succ_cons, List.drop_nil]
  | count + 1, left :: right :: rest =>
      rw [Nat.mul_add, Nat.mul_one, List.drop_succ_cons, List.drop_succ_cons,
        pairsUp, drop_pairsUp count rest, List.drop_succ_cons]

theorem tree_succ (depth : Nat) (nodes : List (List UInt8)) :
    tree hash zero (depth + 1) nodes =
      tree hash (hash (zero ++ zero)) depth (pairsUp hash zero nodes) := by
  induction depth generalizing nodes with
  | zero =>
      match nodes with
      | [] => rfl
      | [_] => rfl
      | _ :: _ :: _ => rfl
  | succ depth induction =>
      have doubled : 2 ^ (depth + 1) = 2 * 2 ^ depth := Nat.pow_succ'
      rw [tree, induction, induction, doubled, take_pairsUp, drop_pairsUp,
        tree]

/-- Padding changes no tree that has room. -/
theorem tree_append_zero {depth : Nat} (room : nodes.length < 2 ^ depth) :
    tree hash zero depth (nodes ++ [zero]) = tree hash zero depth nodes := by
  induction depth generalizing zero nodes with
  | zero =>
      match nodes with
      | [] => rfl
      | _ :: _ => simp at room
  | succ depth induction =>
      rw [tree_succ, tree_succ, pairsUp_append_zero]
      split
      · rename_i even
        rw [induction]
        rw [pairsUp_even even, length_pairs]
        rw [Nat.pow_succ] at room
        omega
      · rfl

theorem frontier_nil (branch : Nat → List UInt8) (height : Nat) :
    Frontier hash branch height [] := by
  intro above odd
  have empty : (pairs hash)^[above] [] = [] := by
    rw [Function.iterate_fixed]
    rfl
  rw [empty] at odd
  simp at odd

theorem frontier_succ {height : Nat} : Frontier hash branch height nodes ↔
    (nodes.length % 2 = 1 → nodes.getLast? = some (branch height)) ∧
      Frontier hash branch (height + 1) (pairs hash nodes) := by
  constructor
  · intro frontier
    refine ⟨frontier 0, fun above odd => ?_⟩
    have next := frontier (above + 1) odd
    rwa [Nat.add_comm above 1, ← Nat.add_assoc, Nat.add_comm 1 above] at next
  · intro ⟨lowest, rest⟩ above odd
    cases above with
    | zero => exact lowest odd
    | succ above =>
        have next := rest above odd
        rwa [Nat.add_assoc, Nat.add_comm 1 above] at next

theorem Frontier.congr {other : Nat → List UInt8} {height : Nat}
    (frontier : Frontier hash branch height nodes)
    (same : ∀ place, height ≤ place → other place = branch place) :
    Frontier hash other height nodes := by
  intro above odd
  rw [same _ (Nat.le_add_right _ _)]
  exact frontier above odd

/-- Inserting keeps the frontier, and needs no more levels than the count. -/
theorem insertLoop_frontier {remaining height : Nat}
    (frontier : Frontier hash branch height nodes)
    (room : nodes.length + 1 < 2 ^ remaining) :
    ∃ after, insertLoop hash remaining height (nodes.length + 1) node branch =
        some after ∧ Frontier hash after height (nodes ++ [node]) := by
  induction remaining generalizing height nodes node with
  | zero => simp at room
  | succ remaining induction =>
      obtain ⟨lowest, rest⟩ := frontier_succ.mp frontier
      rw [insertLoop]
      split
      · rename_i stops
        have even : nodes.length % 2 = 0 := by omega
        refine ⟨_, rfl, frontier_succ.mpr ⟨fun _ => ?_, ?_⟩⟩
        · rw [List.getLast?_concat, Function.update_self]
        · rw [(pairs_append_even even node).1]
          refine rest.congr fun place above => ?_
          exact Function.update_of_ne (by omega) _ _
      · rename_i moves
        have odd : nodes.length % 2 = 1 := by omega
        have halved : (nodes.length + 1) / 2 =
            (pairs hash nodes).length + 1 := by
          rw [length_pairs]
          omega
        have further : (pairs hash nodes).length + 1 < 2 ^ remaining := by
          rw [← halved]
          rw [Nat.pow_succ] at room
          omega
        obtain ⟨final, inserted, kept⟩ : ∃ after,
            insertLoop hash remaining (height + 1)
              ((pairs hash nodes).length + 1) (hash (branch height ++ node))
              branch = some after ∧
            Frontier hash after (height + 1)
              (pairs hash nodes ++ [hash (branch height ++ node)]) :=
          induction rest further
        refine ⟨final, by rw [halved]; exact inserted, frontier_succ.mpr
          ⟨fun odder => ?_, ?_⟩⟩
        · rw [List.length_append, List.length_singleton] at odder
          omega
        · rw [(pairs_append_odd odd (lowest odd) node).1]
          exact kept

/-- The root computed from the frontier is that of the tree over the nodes and
the one that covers the rest. -/
theorem rootLoop_eq {remaining height : Nat} {zeros : Nat → List UInt8}
    (frontier : Frontier hash branch height nodes)
    (room : nodes.length < 2 ^ remaining)
    (empty : ∀ place, zeros (place + 1) = hash (zeros place ++ zeros place)) :
    rootLoop hash zeros branch remaining height nodes.length node =
      tree hash (zeros height) remaining (nodes ++ [node]) := by
  induction remaining generalizing height nodes node with
  | zero =>
      match nodes with
      | [] => rfl
      | _ :: _ => simp at room
  | succ remaining induction =>
      obtain ⟨lowest, rest⟩ := frontier_succ.mp frontier
      have fewer : (pairs hash nodes).length < 2 ^ remaining := by
        rw [length_pairs]
        rw [Nat.pow_succ] at room
        omega
      rw [rootLoop, ← @length_pairs hash, induction rest fewer,
        tree_succ, ← empty]
      split
      · rename_i odd
        rw [(pairs_append_odd odd (lowest odd) node).2]
      · rename_i even
        rw [(pairs_append_even (Nat.mod_two_ne_one.mp even) node).2]

theorem rootLoop_tree {depth : Nat} (frontier : Frontier hash branch 0 nodes)
    (room : nodes.length < 2 ^ depth) :
    rootLoop hash (zeroHash hash) branch depth 0 nodes.length zeroChunk =
      tree hash zeroChunk depth nodes := by
  rw [rootLoop_eq frontier room fun _ => rfl]
  exact tree_append_zero room

end Merkle
