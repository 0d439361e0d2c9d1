import Mathlib.Algebra.Group.Prod
import Mathlib.Tactic.Common

/-!
# Weighted paths of a deterministic relation

A path adds up the weights of its steps.  When each state has at most one step,
a path is a prefix of every other that leaves the same state and goes further,
so the weight up to a state without a step is fixed by where the path starts.
-/

namespace Paths

variable {State Weight : Type} [AddMonoid Weight]
  {step later : State → Weight → State → Prop}

/-- A path of steps with the sum of their weights. -/
inductive Path (step : State → Weight → State → Prop) :
    State → Weight → State → Prop where
  | refl (start : State) : Path step start 0 start
  | head {start middle stop : State} {first rest : Weight} :
      step start first middle → Path step middle rest stop →
      Path step start (first + rest) stop

theorem Path.single {start stop : State} {weight : Weight}
    (taken : step start weight stop) : Path step start weight stop := by
  have path := Path.head taken (.refl stop)
  rwa [add_zero] at path

theorem Path.trans {start middle stop : State} {first rest : Weight}
    (path : Path step start first middle)
    (further : Path step middle rest stop) :
    Path step start (first + rest) stop := by
  induction path with
  | refl => rwa [zero_add]
  | head taken _ induction =>
      rw [add_assoc]
      exact .head taken (induction further)

theorem Path.mono {start stop : State} {weight : Weight}
    (path : Path step start weight stop)
    (kept : ∀ start weight stop, step start weight stop →
      later start weight stop) : Path later start weight stop := by
  induction path with
  | refl => exact .refl _
  | head taken _ induction => exact .head (kept _ _ _ taken) induction

/-- At most one step leaves a state, with one weight. -/
def Deterministic (step : State → Weight → State → Prop) : Prop :=
  ∀ start first middle second other, step start first middle →
    step start second other → first = second ∧ middle = other

def Terminal (step : State → Weight → State → Prop) (state : State) : Prop :=
  ∀ weight stop, ¬ step state weight stop

/-- Two paths from one state to states without a step are the same. -/
theorem Path.unique (deterministic : Deterministic step)
    {start stop other : State} {weight sum : Weight}
    (path : Path step start weight stop) (terminal : Terminal step stop)
    (second : Path step start sum other) (final : Terminal step other) :
    weight = sum ∧ stop = other := by
  induction path generalizing sum with
  | refl =>
      cases second with
      | refl => exact ⟨rfl, rfl⟩
      | head taken _ => exact absurd taken (terminal _ _)
  | head taken _ induction =>
      cases second with
      | refl => exact absurd taken (final _ _)
      | head other rest =>
          obtain ⟨rfl, rfl⟩ := deterministic _ _ _ _ _ taken other
          obtain ⟨rfl, rfl⟩ := induction terminal rest
          exact ⟨rfl, rfl⟩

end Paths
