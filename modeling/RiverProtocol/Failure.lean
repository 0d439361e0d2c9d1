import RiverProtocol.Common
import RiverProtocol.Lib.Outcome

/-!
# Failed calls

How a call of a contract fails: with one of the errors of the contracts, or in
a way that only the code around them knows.
-/

namespace RiverProtocol

open Outcome

inductive Failure where
  | raised (error : Error)
  -- Initializable
  | invalidInitialization (version expectedVersion : Nat)
  -- TUPProxy
  | callWhenPaused
  -- `require` with a text, `assert`, memory beyond what can be addressed
  | message (text : String)
  | assertionFailed
  | memoryTooLarge
  -- no data: a message no function takes, or ether for one that takes none
  | bare
  deriving DecidableEq, Repr

def raising {α : Type} (computation : Except Error α) : Except Failure α :=
  computation.mapError .raised

variable {α : Type} {computation : Except Error α} {value : α}

@[simp] theorem raising_eq_ok :
    raising computation = .ok value ↔ computation = .ok value := by
  cases computation <;> simp [raising, Except.mapError]

theorem raising_ok : raising (.ok value : Except Error α) = .ok value := rfl

end RiverProtocol
