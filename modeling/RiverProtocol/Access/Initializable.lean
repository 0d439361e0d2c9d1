import RiverProtocol.Failure

/-!
# Initializers

The modifier that lets the initializers of a contract run once each, in the
order of their versions.
-/

namespace RiverProtocol

open Outcome

/-- Storage behind a proxy, with the version of `Initializable`. -/
structure Versioned (State : Type) where
  version : Nat
  state : State

namespace Versioned

variable {State : Type}

/-- The modifier `init` of `Initializable`. -/
def init (version : Nat) (storage : Versioned State)
    (body : State → Except Error State) : Except Failure (Versioned State) := do
  require (version = storage.version)
    (.invalidInitialization version storage.version)
  let state ← raising (body storage.state)
  return { version := version + 1, state := state }

theorem init_eq_ok {version : Nat} {storage after : Versioned State}
    {body : State → Except Error State} :
    init version storage body = .ok after ↔
      storage.version = version ∧ ∃ state,
        body storage.state = .ok state ∧ after = ⟨version + 1, state⟩ := by
  simp only [init, bind_eq_ok, require_eq_ok, raising_eq_ok, pure_eq_ok]
  constructor
  · rintro ⟨-, same, state, returned, rfl⟩
    exact ⟨same.symm, state, returned, rfl⟩
  · rintro ⟨same, state, returned, rfl⟩
    exact ⟨(), same.symm, state, returned, rfl⟩

end Versioned

end RiverProtocol
