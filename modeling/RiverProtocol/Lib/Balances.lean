import Mathlib.Algebra.BigOperators.Fin
import Mathlib.Algebra.Order.BigOperators.Group.Finset
import Mathlib.Tactic.Common

/-!
# Balances over a finite set of owners

Balances are changed one owner at a time, by crediting or debiting.  The total
moves with every write.
-/

namespace Balances

variable {α : Type} [DecidableEq α]

def credit (balances : α → Nat) (owner : α) (value : Nat) : α → Nat :=
  Function.update balances owner (balances owner + value)

def debit (balances : α → Nat) (owner : α) (value : Nat) : α → Nat :=
  Function.update balances owner (balances owner - value)

/-- Debit one owner, then credit another, who may be the same. -/
def move (balances : α → Nat) (sender recipient : α) (value : Nat) :
    α → Nat :=
  credit (debit balances sender value) recipient value

variable {balances : α → Nat} {owner sender recipient other : α} {value : Nat}

@[simp] theorem credit_self :
    credit balances owner value owner = balances owner + value :=
  Function.update_self _ _ _

theorem credit_of_ne (different : other ≠ owner) :
    credit balances owner value other = balances other :=
  Function.update_of_ne different _ _

@[simp] theorem debit_self :
    debit balances owner value owner = balances owner - value :=
  Function.update_self _ _ _

theorem debit_of_ne (different : other ≠ owner) :
    debit balances owner value other = balances other :=
  Function.update_of_ne different _ _

theorem le_credit : balances other ≤ credit balances owner value other := by
  by_cases same : other = owner
  · rw [same, credit_self]
    exact Nat.le_add_right _ _
  · rw [credit_of_ne same]

theorem le_move (different : other ≠ sender) :
    balances other ≤ move balances sender recipient value other := by
  calc
    balances other = debit balances sender value other :=
      (debit_of_ne different).symm
    _ ≤ _ := le_credit

theorem move_recipient (different : recipient ≠ sender) :
    move balances sender recipient value recipient =
      balances recipient + value := by
  rw [move, credit_self, debit_of_ne different]

theorem move_sender (different : sender ≠ recipient) :
    move balances sender recipient value sender = balances sender - value := by
  rw [move, credit_of_ne different, debit_self]

theorem move_other (notSender : other ≠ sender)
    (notRecipient : other ≠ recipient) :
    move balances sender recipient value other = balances other := by
  rw [move, credit_of_ne notRecipient, debit_of_ne notSender]

theorem move_zero : move balances sender recipient 0 = balances := by
  funext account
  simp [move, credit, debit]

theorem move_self (enough : value ≤ balances owner) :
    move balances owner owner value = balances := by
  funext account
  by_cases same : account = owner
  · rw [same, move, credit_self, debit_self, Nat.sub_add_cancel enough]
  · rw [move, credit_of_ne same, debit_of_ne same]

section Total

variable [Fintype α]

def total (balances : α → Nat) : Nat := ∑ owner, balances owner

theorem total_update (balances : α → Nat) (owner : α) (value : Nat) :
    total (Function.update balances owner value) + balances owner =
      total balances + value := by
  have rest := Finset.sum_erase_add Finset.univ balances
    (Finset.mem_univ owner)
  have updated := Finset.sum_erase_add Finset.univ
    (Function.update balances owner value) (Finset.mem_univ owner)
  have same : ∑ account ∈ Finset.univ.erase owner,
      Function.update balances owner value account =
      ∑ account ∈ Finset.univ.erase owner, balances account := by
    apply Finset.sum_congr rfl
    intro account member
    exact Function.update_of_ne (Finset.ne_of_mem_erase member) _ _
  rw [same, Function.update_self] at updated
  unfold total
  omega

theorem total_change {before after : α → Nat} (owner : α)
    (rest : ∀ account, account ≠ owner → after account = before account) :
    total after + before owner = total before + after owner := by
  have written : after = Function.update before owner (after owner) := by
    funext account
    by_cases same : account = owner
    · rw [same, Function.update_self]
    · rw [Function.update_of_ne same]
      exact rest account same
  have updated := total_update before owner (after owner)
  rwa [← written] at updated

@[simp] theorem total_credit :
    total (credit balances owner value) = total balances + value := by
  have updated := total_update balances owner (balances owner + value)
  unfold credit
  omega

theorem total_debit (enough : value ≤ balances owner) :
    total (debit balances owner value) + value = total balances := by
  have updated := total_update balances owner (balances owner - value)
  unfold debit
  omega

theorem total_move (enough : value ≤ balances sender) :
    total (move balances sender recipient value) = total balances := by
  rw [move, total_credit]
  exact total_debit enough

omit [DecidableEq α] in
theorem le_total (balances : α → Nat) (owner : α) :
    balances owner ≤ total balances :=
  Finset.single_le_sum (fun _ _ => Nat.zero_le _) (Finset.mem_univ owner)

section Groups

variable {κ : Type} [DecidableEq κ]

/-- The total of the owners that belong to a group. -/
def groupTotal (group : α → κ) (balances : α → Nat) (key : κ) : Nat :=
  total fun owner => if group owner = key then balances owner else 0

variable {group : α → κ} {key newKey : κ}

/-- A write of one owner moves the total of its group only. -/
theorem groupTotal_update (group : α → κ) (balances : α → Nat) (owner : α)
    (value : Nat) (key : κ) :
    groupTotal group (Function.update balances owner value) key +
        (if group owner = key then balances owner else 0) =
      groupTotal group balances key +
        if group owner = key then value else 0 := by
  have changed : groupTotal group (Function.update balances owner value) key +
      (if group owner = key then balances owner else 0) =
      groupTotal group balances key +
        if group owner = key then Function.update balances owner value owner
        else 0 := by
    unfold groupTotal
    apply total_change owner
    intro account different
    rw [Function.update_of_ne different]
  rwa [Function.update_self] at changed

theorem groupTotal_move (enough : value ≤ balances sender) :
    groupTotal group (move balances sender recipient value) key +
        (if group sender = key then value else 0) =
      groupTotal group balances key +
        if group recipient = key then value else 0 := by
  have taken := groupTotal_update group balances sender
    (balances sender - value) key
  have given := groupTotal_update group (debit balances sender value) recipient
    (debit balances sender value recipient + value) key
  unfold move credit
  unfold debit at given ⊢
  split at taken <;> split at given <;> simp_all <;> omega

/-- An owner that changes its group takes its balance along. -/
theorem groupTotal_regroup (group : α → κ) (balances : α → Nat) (owner : α)
    (newKey key : κ) :
    groupTotal (Function.update group owner newKey) balances key +
        (if group owner = key then balances owner else 0) =
      groupTotal group balances key +
        if newKey = key then balances owner else 0 := by
  have changed : groupTotal (Function.update group owner newKey) balances key +
      (if group owner = key then balances owner else 0) =
      groupTotal group balances key +
        if Function.update group owner newKey owner = key then balances owner
        else 0 := by
    unfold groupTotal
    apply total_change owner
    intro account different
    rw [Function.update_of_ne different]
  rwa [Function.update_self] at changed

omit [DecidableEq α] in
theorem sum_groupTotal [Fintype κ] (group : α → κ) (balances : α → Nat) :
    ∑ key, groupTotal group balances key = total balances := by
  unfold groupTotal total
  rw [Finset.sum_comm]
  apply Finset.sum_congr rfl
  intro owner _
  rw [Finset.sum_ite_eq, if_pos (Finset.mem_univ _)]

end Groups

end Total

end Balances
