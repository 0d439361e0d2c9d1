import Mathlib.Data.Nat.Basic
import Mathlib.Logic.Relation
import Mathlib.Order.Lattice
import Mathlib.Order.Monotone.Defs
import Mathlib.Tactic.Common

/-!
# Escrows that pay along an entitlement

An escrow holds what its payee may still earn until a deadline.  The payee
earns along a monotone entitlement and is released what it earned as far as a
monotone cap allows.  The payer may bring the deadline forward, never behind
the present, and takes back what can no longer be earned.
-/

namespace Escrow

variable {τ : Type} [LinearOrder τ]

/-- What is earned by a time, and how much may be released by then. -/
structure Terms (τ : Type) [LinearOrder τ] where
  earned : τ → Nat
  cap : τ → Nat
  earned_mono : Monotone earned
  cap_mono : Monotone cap

structure Account (τ : Type) where
  deadline : τ
  balance : Nat
  released : Nat
  returned : Nat

namespace Account

/-- The account with all of `amount` in escrow. -/
def opened (deadline : τ) (amount : Nat) : Account τ :=
  { deadline, balance := amount, released := 0, returned := 0 }

/-- Pay out until `total` is released. -/
def release (account : Account τ) (total : Nat) : Account τ :=
  { account with
    balance := account.balance - (total - account.released)
    released := total }

/-- Bring the deadline forward and give back what is not earned by then. -/
def revoke (account : Account τ) (terms : Terms τ) (deadline : τ) :
    Account τ :=
  let unearned := terms.earned account.deadline - terms.earned deadline
  { account with
    deadline
    balance := account.balance - unearned
    returned := account.returned + unearned }

end Account

namespace Terms

/-- What must have been released once everything due is. -/
def due (terms : Terms τ) (now : τ) (account : Account τ) : Nat :=
  min (terms.earned (min now account.deadline)) (terms.cap now)

/-- The account is solvent: its balance backs what is yet to be released. -/
structure Keeps (terms : Terms τ) (amount : Nat) (now : τ)
    (account : Account τ) : Prop where
  backed : account.balance + account.released = terms.earned account.deadline
  earned : account.released ≤ terms.earned (min now account.deadline)
  capped : account.released ≤ terms.cap now
  whole : account.released + account.returned + account.balance = amount

variable {terms : Terms τ} {amount : Nat} {now later deadline : τ}
  {account : Account τ}

theorem keeps_opened (full : terms.earned deadline = amount) :
    terms.Keeps amount now (Account.opened deadline amount) :=
  { backed := full.symm
    earned := Nat.zero_le _
    capped := Nat.zero_le _
    whole := by simp [Account.opened] }

theorem due_le_earned :
    terms.due now account ≤ terms.earned account.deadline :=
  le_trans (min_le_left _ _) (terms.earned_mono (min_le_right _ _))

namespace Keeps

theorem payable (keeps : terms.Keeps amount now account) :
    terms.due now account - account.released ≤ account.balance := by
  have bound : terms.due now account ≤ terms.earned account.deadline :=
    due_le_earned
  have backed := keeps.backed
  omega

theorem released_le_due (keeps : terms.Keeps amount now account) :
    account.released ≤ terms.due now account :=
  le_min keeps.earned keeps.capped

theorem returnable (keeps : terms.Keeps amount now account)
    (ahead : now ≤ deadline) (sooner : deadline ≤ account.deadline) :
    account.released ≤ terms.earned deadline ∧
      terms.earned account.deadline - terms.earned deadline ≤
        account.balance := by
  have released : account.released ≤ terms.earned deadline := by
    apply le_trans keeps.earned
    exact terms.earned_mono (le_trans (min_le_left _ _) ahead)
  have backed := keeps.backed
  have mono := terms.earned_mono sooner
  exact ⟨released, by omega⟩

theorem pass (keeps : terms.Keeps amount now account) (passed : now ≤ later) :
    terms.Keeps amount later account :=
  { backed := keeps.backed
    earned := by
      apply le_trans keeps.earned
      exact terms.earned_mono (inf_le_inf_right _ passed)
    capped := le_trans keeps.capped (terms.cap_mono passed)
    whole := keeps.whole }

theorem release (keeps : terms.Keeps amount now account) :
    terms.Keeps amount now (account.release (terms.due now account)) := by
  have payable := keeps.payable
  have ordered := keeps.released_le_due
  refine
    { backed := ?_
      earned := min_le_left _ _
      capped := min_le_right _ _
      whole := ?_ }
  · have backed := keeps.backed
    simp only [Account.release]
    omega
  · have whole := keeps.whole
    simp only [Account.release]
    omega

theorem revoke (keeps : terms.Keeps amount now account)
    (ahead : now ≤ deadline) (sooner : deadline ≤ account.deadline) :
    terms.Keeps amount now (account.revoke terms deadline) := by
  obtain ⟨released, returnable⟩ := keeps.returnable ahead sooner
  have mono := terms.earned_mono sooner
  refine
    { backed := ?_
      earned := ?_
      capped := keeps.capped
      whole := ?_ }
  · have backed := keeps.backed
    simp only [Account.revoke]
    omega
  · have soonest : min now account.deadline ≤ min now deadline := by
      rw [min_eq_left ahead]
      exact min_le_left _ _
    exact le_trans keeps.earned (terms.earned_mono soonest)
  · have whole := keeps.whole
    simp only [Account.revoke]
    omega

end Keeps

/-- What may happen to an account at a time. -/
inductive Step (terms : Terms τ) : τ × Account τ → τ × Account τ → Prop where
  | pass {now later : τ} {account : Account τ} :
      now ≤ later → Step terms (now, account) (later, account)
  | release {now : τ} {account : Account τ} :
      Step terms (now, account)
        (now, account.release (terms.due now account))
  | revoke {now deadline : τ} {account : Account τ} :
      now ≤ deadline → deadline ≤ account.deadline →
      Step terms (now, account) (now, account.revoke terms deadline)

theorem Step.release_of {reached : Account τ}
    (deadline : reached.deadline = account.deadline)
    (balance : reached.balance =
      account.balance - (terms.due now account - account.released))
    (released : reached.released = terms.due now account)
    (returned : reached.returned = account.returned) :
    terms.Step (now, account) (now, reached) := by
  obtain rfl : reached = account.release (terms.due now account) := by
    cases reached
    simp_all [Account.release]
  exact .release

theorem Step.revoke_of {reached : Account τ}
    (ahead : now ≤ reached.deadline)
    (sooner : reached.deadline ≤ account.deadline)
    (balance : reached.balance = account.balance -
      (terms.earned account.deadline - terms.earned reached.deadline))
    (released : reached.released = account.released)
    (returned : reached.returned = account.returned +
      (terms.earned account.deadline - terms.earned reached.deadline)) :
    terms.Step (now, account) (now, reached) := by
  obtain same : reached = account.revoke terms reached.deadline := by
    cases reached
    simp_all [Account.revoke]
  rw [same]
  exact .revoke ahead sooner

theorem Step.keeps {before after : τ × Account τ}
    (step : terms.Step before after)
    (keeps : terms.Keeps amount before.1 before.2) :
    terms.Keeps amount after.1 after.2 := by
  cases step with
  | pass passed => exact keeps.pass passed
  | release => exact keeps.release
  | revoke ahead sooner => exact keeps.revoke ahead sooner

theorem Step.deadline_le {before after : τ × Account τ}
    (step : terms.Step before after) :
    after.2.deadline ≤ before.2.deadline := by
  cases step with
  | pass passed => exact le_rfl
  | release => exact le_rfl
  | revoke ahead sooner => exact sooner

theorem Keeps.of_run {before after : τ × Account τ}
    (keeps : terms.Keeps amount before.1 before.2)
    (run : Relation.ReflTransGen terms.Step before after) :
    terms.Keeps amount after.1 after.2 ∧
      after.2.deadline ≤ before.2.deadline := by
  induction run with
  | refl => exact ⟨keeps, le_rfl⟩
  | tail _ step induction =>
      obtain ⟨kept, sooner⟩ := induction
      exact ⟨step.keeps kept, step.deadline_le.trans sooner⟩

end Terms

end Escrow
