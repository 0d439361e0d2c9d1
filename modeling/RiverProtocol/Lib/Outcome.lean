import Mathlib.Data.List.Forall2
import Mathlib.Logic.Basic
import Mathlib.Tactic.Common

/-!
# Outcomes of fallible computations

A call either returns a value or stops with a failure, and a failed call
leaves no effect.  `Ends allowed post` is the corresponding judgement: the
returned value satisfies `post`, and a failure is one of the `allowed` ones.
With every failure allowed it is partial correctness; with none it is total
correctness.
-/

namespace Outcome

variable {ε : Type} {α β : Type}

/-- Stop with `failure` unless the condition holds. -/
def require (condition : Prop) [Decidable condition] (failure : ε) :
    Except ε Unit :=
  if condition then .ok () else .error failure

/-- Read a list at a position, failing outside its bounds. -/
def fetch (items : List α) (index : Nat) (failure : ε) : Except ε α :=
  match items[index]? with
  | some item => .ok item
  | none => .error failure

@[simp] theorem bind_eq_ok
    {action : Except ε α} {next : α → Except ε β} {result : β} :
    (action >>= next) = .ok result ↔
      ∃ value, action = .ok value ∧ next value = .ok result := by
  cases action <;> simp [bind, Except.bind]

@[simp] theorem pure_eq_ok {value result : α} :
    (pure value : Except ε α) = .ok result ↔ value = result := by
  simp [pure, Except.pure]

theorem guarded_eq_ok
    {condition : Prop} [Decidable condition] {value result : α} {failure : ε} :
    (if condition then .ok value else .error failure : Except ε α) =
        .ok result ↔ condition ∧ value = result := by
  by_cases holds : condition <;> simp [holds]

@[simp] theorem require_eq_ok
    {condition : Prop} [Decidable condition] {failure : ε} {result : Unit} :
    require condition failure = .ok result ↔ condition := by
  by_cases holds : condition <;> simp [require, holds]

@[simp] theorem fetch_eq_ok
    {items : List α} {index : Nat} {failure : ε} {item : α} :
    fetch items index failure = .ok item ↔ items[index]? = some item := by
  unfold fetch
  cases found : items[index]? <;> simp

/-- Whether the computation returns a value that passes a check. -/
def returns (computation : Except ε α) (check : α → Bool) : Bool :=
  match computation with
  | .ok value => check value
  | .error _ => false

theorem returns_iff {computation : Except ε α} {check : α → Bool} :
    returns computation check = true ↔
      ∃ value, computation = .ok value ∧ check value = true := by
  cases computation <;> simp [returns]

/-- Whether the computation stops with this failure. -/
def fails [DecidableEq ε] (computation : Except ε α) (failure : ε) : Bool :=
  match computation with
  | .ok _ => false
  | .error raised => raised = failure

theorem fails_iff [DecidableEq ε] {computation : Except ε α} {failure : ε} :
    fails computation failure = true ↔ computation = .error failure := by
  cases computation <;> simp [fails]

@[simp] theorem bind_eq_error
    {action : Except ε α} {next : α → Except ε β} {failure : ε} :
    (action >>= next) = .error failure ↔ action = .error failure ∨
      ∃ value, action = .ok value ∧ next value = .error failure := by
  cases action <;> simp [bind, Except.bind]

@[simp] theorem pure_eq_error {value : α} {failure : ε} :
    (pure value : Except ε α) = .error failure ↔ False := by
  simp [pure, Except.pure]

@[simp] theorem require_eq_error
    {condition : Prop} [Decidable condition] {failure raised : ε} :
    require condition failure = .error raised ↔
      ¬ condition ∧ failure = raised := by
  by_cases holds : condition <;> simp [require, holds]

@[simp] theorem fetch_eq_error
    {items : List α} {index : Nat} {failure raised : ε} :
    fetch items index failure = .error raised ↔
      items[index]? = none ∧ failure = raised := by
  unfold fetch
  cases found : items[index]? <;> simp

/-- Continuations need to agree on the returned value only. -/
theorem bind_congr_of_ok {action : Except ε α} {next other : α → Except ε β}
    (agree : ∀ value, action = .ok value → next value = other value) :
    (action >>= next) = (action >>= other) := by
  cases action with
  | ok value => exact agree value rfl
  | error failure => rfl

theorem map_bind {γ : Type} {transform : β → γ} {action : Except ε α}
    {next : α → Except ε β} :
    (action >>= next).map transform =
      action >>= fun value => (next value).map transform := by
  cases action <;> rfl

theorem map_injective {transform : α → β}
    (injective : Function.Injective transform) {first second : Except ε α}
    (same : first.map transform = second.map transform) : first = second := by
  cases first with
  | error failure =>
      cases second with
      | error _ => exact congrArg Except.error (Except.error.inj same)
      | ok _ => cases same
  | ok value =>
      cases second with
      | error _ => cases same
      | ok _ => exact congrArg Except.ok (injective (Except.ok.inj same))

theorem ok_bind {value : α} {next : α → Except ε β} :
    ((.ok value : Except ε α) >>= next) = next value := rfl

theorem require_of {condition : Prop} [Decidable condition] {failure : ε}
    (holds : condition) : require condition failure = .ok () :=
  if_pos holds

theorem mapM_returns {items : List α} {step : α → Except ε β}
    (each : ∀ item ∈ items, ∃ value, step item = .ok value) :
    ∃ values, items.mapM step = .ok values ∧
      List.Forall₂ (fun item value => step item = .ok value) items values := by
  induction items with
  | nil => exact ⟨[], rfl, .nil⟩
  | cons item rest induction =>
      obtain ⟨value, returned⟩ := each item List.mem_cons_self
      obtain ⟨values, remaining, related⟩ := induction fun other member =>
        each other (List.mem_cons_of_mem _ member)
      refine ⟨value :: values, ?_, .cons returned related⟩
      rw [List.mapM_cons, returned, ok_bind, remaining]
      rfl

/-- Where every step returns or stops with this failure and some step stops,
so does the whole. -/
theorem mapM_fails {items : List α} {step : α → Except ε β} {failure : ε}
    (each : ∀ item ∈ items,
      (∃ value, step item = .ok value) ∨ step item = .error failure)
    (stops : ∃ item ∈ items, step item = .error failure) :
    items.mapM step = .error failure := by
  induction items with
  | nil =>
      obtain ⟨item, member, -⟩ := stops
      exact absurd member List.not_mem_nil
  | cons item rest induction =>
      rw [List.mapM_cons]
      rcases each item List.mem_cons_self with ⟨value, returned⟩ | failed
      · have remaining : rest.mapM step = .error failure := by
          refine induction (fun other member =>
            each other (List.mem_cons_of_mem _ member)) ?_
          obtain ⟨stopped, member, failed⟩ := stops
          rcases List.mem_cons.mp member with rfl | later
          · rw [returned] at failed
            exact nomatch failed
          · exact ⟨stopped, later, failed⟩
        rw [returned, ok_bind, remaining]
        rfl
      · rw [failed]
        rfl

/-- The computation returns a value satisfying `post` or fails in an allowed
way. -/
def Ends (allowed : ε → Prop) (post : α → Prop) : Except ε α → Prop
  | .ok value => post value
  | .error failure => allowed failure

variable {allowed : ε → Prop} {post : α → Prop}

theorem Ends.of_ok {computation : Except ε α}
    (ends : Ends allowed post computation) {value : α}
    (returned : computation = .ok value) : post value := by
  subst returned
  exact ends

theorem Ends.of_error {computation : Except ε α}
    (ends : Ends allowed post computation) {failure : ε}
    (failed : computation = .error failure) : allowed failure := by
  subst failed
  exact ends

theorem Ends.mono {computation : Except ε α} {weaker : α → Prop}
    (ends : Ends allowed post computation)
    (implies : ∀ value, post value → weaker value) :
    Ends allowed weaker computation := by
  cases computation with
  | ok value => exact implies value ends
  | error failure => exact ends

theorem Ends.pure {value : α} (holds : post value) :
    Ends allowed post (pure value) := holds

/-- Sequencing that remembers which value the first computation returned. -/
theorem Ends.bind_returned {final : β → Prop}
    {action : Except ε α} {next : α → Except ε β}
    (first : Ends allowed (fun _ => True) action)
    (second : ∀ value, action = .ok value → Ends allowed final (next value)) :
    Ends allowed final (action >>= next) := by
  cases action with
  | ok value => exact second value rfl
  | error failure => exact first

theorem Ends.require {condition : Prop} [Decidable condition] {failure : ε}
    {post : Unit → Prop} (holds : condition) (continues : post ()) :
    Ends allowed post (require condition failure) := by
  rw [require_of holds]
  exact continues

theorem Ends.allow {computation : Except ε α} {wider : ε → Prop}
    (ends : Ends allowed post computation)
    (implies : ∀ failure, allowed failure → wider failure) :
    Ends wider post computation := by
  cases computation with
  | ok value => exact ends
  | error failure => exact implies failure ends

theorem Ends.check {condition : Prop} [Decidable condition] {failure : ε}
    (refused : allowed failure) :
    Ends allowed (fun _ => True) (Outcome.require condition failure) := by
  unfold Outcome.require
  split
  · exact trivial
  · exact refused

theorem Ends.fetch {items : List α} {index : Nat} {failure : ε}
    (inside : index < items.length) (holds : post items[index]) :
    Ends allowed post (fetch items index failure) := by
  unfold Outcome.fetch
  rw [List.getElem?_eq_getElem inside]
  exact holds

end Outcome
