import Mathlib.Algebra.Group.Nat.Defs
import RiverProtocol.Lib.Outcome

/-!
# Checked machine words

Words are natural numbers below a width.  A sum or a product past the width,
a difference below zero, a division by zero and an index outside a list stop
the computation with a panic.  The inversion lemmas read the exact result off
a returned value; the rules for `Ends` say when an operation cannot panic.
-/

namespace Checked

open Outcome

inductive Panic where
  | overflow
  | underflow
  | divisionByZero
  | outOfBounds
  deriving DecidableEq, Repr

/-- Failures of a program that include the panics of its arithmetic. -/
class HasPanic (ε : Type) where
  panic : Panic → ε

variable {ε : Type} [HasPanic ε]

/-- The first natural number that is not a 256-bit word. -/
def wordLimit : Nat := 2 ^ 256

/-- The first natural number that is not a 32-bit word. -/
def uint32Limit : Nat := 2 ^ 32

/-- The first natural number that is not a 64-bit word. -/
def uint64Limit : Nat := 2 ^ 64

/-- The value a cast to 32 bits keeps. -/
def toUint32 (value : Nat) : Nat := value % uint32Limit

/-- The value a cast to 64 bits keeps. -/
def toUint64 (value : Nat) : Nat := value % uint64Limit

def addBelow (limit left right : Nat) : Except ε Nat :=
  if left + right < limit then .ok (left + right)
  else .error (HasPanic.panic .overflow)

def uadd (left right : Nat) : Except ε Nat := addBelow wordLimit left right

def uadd32 (left right : Nat) : Except ε Nat := addBelow uint32Limit left right

def uadd64 (left right : Nat) : Except ε Nat := addBelow uint64Limit left right

def usub (left right : Nat) : Except ε Nat :=
  if right ≤ left then .ok (left - right)
  else .error (HasPanic.panic .underflow)

def mulBelow (limit left right : Nat) : Except ε Nat :=
  if left * right < limit then .ok (left * right)
  else .error (HasPanic.panic .overflow)

def umul (left right : Nat) : Except ε Nat := mulBelow wordLimit left right

def umul64 (left right : Nat) : Except ε Nat := mulBelow uint64Limit left right

def udiv (left right : Nat) : Except ε Nat :=
  if right = 0 then .error (HasPanic.panic .divisionByZero)
  else .ok (left / right)

def umod (left right : Nat) : Except ε Nat :=
  if right = 0 then .error (HasPanic.panic .divisionByZero)
  else .ok (left % right)

variable {left right result : Nat}

@[simp] theorem uadd_eq_ok :
    (uadd left right : Except ε Nat) = .ok result ↔
      left + right < wordLimit ∧ left + right = result :=
  guarded_eq_ok

@[simp] theorem uadd32_eq_ok :
    (uadd32 left right : Except ε Nat) = .ok result ↔
      left + right < uint32Limit ∧ left + right = result :=
  guarded_eq_ok

@[simp] theorem uadd64_eq_ok :
    (uadd64 left right : Except ε Nat) = .ok result ↔
      left + right < uint64Limit ∧ left + right = result :=
  guarded_eq_ok

@[simp] theorem usub_eq_ok :
    (usub left right : Except ε Nat) = .ok result ↔
      right ≤ left ∧ left - right = result :=
  guarded_eq_ok

@[simp] theorem umul_eq_ok :
    (umul left right : Except ε Nat) = .ok result ↔
      left * right < wordLimit ∧ left * right = result :=
  guarded_eq_ok

@[simp] theorem umul64_eq_ok :
    (umul64 left right : Except ε Nat) = .ok result ↔
      left * right < uint64Limit ∧ left * right = result :=
  guarded_eq_ok

@[simp] theorem udiv_eq_ok :
    (udiv left right : Except ε Nat) = .ok result ↔
      right ≠ 0 ∧ left / right = result := by
  by_cases zero : right = 0 <;> simp [udiv, zero]

@[simp] theorem umod_eq_ok :
    (umod left right : Except ε Nat) = .ok result ↔
      right ≠ 0 ∧ left % right = result := by
  by_cases zero : right = 0 <;> simp [umod, zero]

theorem uadd_of_lt (fits : left + right < wordLimit) :
    (uadd left right : Except ε Nat) = .ok (left + right) :=
  if_pos fits

theorem umul_of_lt (fits : left * right < wordLimit) :
    (umul left right : Except ε Nat) = .ok (left * right) :=
  if_pos fits

theorem usub_of_le (enough : right ≤ left) :
    (usub left right : Except ε Nat) = .ok (left - right) :=
  if_pos enough

theorem uadd64_of_lt (fits : left + right < uint64Limit) :
    (uadd64 left right : Except ε Nat) = .ok (left + right) :=
  if_pos fits

theorem umod_of_ne (nonzero : right ≠ 0) :
    (umod left right : Except ε Nat) = .ok (left % right) :=
  if_neg nonzero

theorem udiv_of_ne (nonzero : right ≠ 0) :
    (udiv left right : Except ε Nat) = .ok (left / right) :=
  if_neg nonzero

variable {raised : ε}

@[simp] theorem uadd_eq_error :
    uadd left right = .error raised ↔
      wordLimit ≤ left + right ∧ HasPanic.panic .overflow = raised := by
  by_cases fits : left + right < wordLimit <;>
    simp [uadd, addBelow, fits, Nat.not_le.mpr, Nat.not_lt.mp]

@[simp] theorem uadd64_eq_error :
    uadd64 left right = .error raised ↔
      uint64Limit ≤ left + right ∧ HasPanic.panic .overflow = raised := by
  by_cases fits : left + right < uint64Limit <;>
    simp [uadd64, addBelow, fits, Nat.not_le.mpr, Nat.not_lt.mp]

@[simp] theorem usub_eq_error :
    usub left right = .error raised ↔
      left < right ∧ HasPanic.panic .underflow = raised := by
  by_cases enough : right ≤ left
  · simp [usub, enough, Nat.not_lt.mpr enough]
  · simp [usub, enough, Nat.lt_of_not_le enough]

@[simp] theorem umul_eq_error :
    umul left right = .error raised ↔
      wordLimit ≤ left * right ∧ HasPanic.panic .overflow = raised := by
  by_cases fits : left * right < wordLimit <;>
    simp [umul, mulBelow, fits, Nat.not_le.mpr, Nat.not_lt.mp]

@[simp] theorem udiv_eq_error :
    udiv left right = .error raised ↔
      right = 0 ∧ HasPanic.panic .divisionByZero = raised := by
  by_cases zero : right = 0 <;> simp [udiv, zero]

theorem toUint32_of_lt {value : Nat} (small : value < uint32Limit) :
    toUint32 value = value :=
  Nat.mod_eq_of_lt small

theorem toUint64_of_lt {value : Nat} (small : value < uint64Limit) :
    toUint64 value = value :=
  Nat.mod_eq_of_lt small

theorem toUint32_le (value : Nat) : toUint32 value ≤ value :=
  Nat.mod_le _ _

theorem toUint32_lt (value : Nat) : toUint32 value < uint32Limit :=
  Nat.mod_lt _ (by decide)

variable {allowed : ε → Prop} {post : Nat → Prop}

theorem ends_uadd
    (overflow : wordLimit ≤ left + right →
      allowed (HasPanic.panic .overflow))
    (holds : left + right < wordLimit → post (left + right)) :
    Ends allowed post (uadd left right) := by
  unfold uadd addBelow
  split
  · exact holds ‹_›
  · exact overflow (Nat.le_of_not_lt ‹_›)

theorem ends_uadd32
    (overflow : uint32Limit ≤ left + right →
      allowed (HasPanic.panic .overflow))
    (holds : left + right < uint32Limit → post (left + right)) :
    Ends allowed post (uadd32 left right) := by
  unfold uadd32 addBelow
  split
  · exact holds ‹_›
  · exact overflow (Nat.le_of_not_lt ‹_›)

theorem ends_umul
    (overflow : wordLimit ≤ left * right →
      allowed (HasPanic.panic .overflow))
    (holds : left * right < wordLimit → post (left * right)) :
    Ends allowed post (umul left right) := by
  unfold umul mulBelow
  split
  · exact holds ‹_›
  · exact overflow (Nat.le_of_not_lt ‹_›)

theorem ends_umul64
    (overflow : uint64Limit ≤ left * right →
      allowed (HasPanic.panic .overflow))
    (holds : left * right < uint64Limit → post (left * right)) :
    Ends allowed post (umul64 left right) := by
  unfold umul64 mulBelow
  split
  · exact holds ‹_›
  · exact overflow (Nat.le_of_not_lt ‹_›)

theorem ends_usub (enough : right ≤ left) (holds : post (left - right)) :
    Ends allowed post (usub left right) := by
  unfold usub
  rw [if_pos enough]
  exact holds

theorem ends_udiv (nonzero : right ≠ 0) (holds : post (left / right)) :
    Ends allowed post (udiv left right) := by
  unfold udiv
  rw [if_neg nonzero]
  exact holds

section Completes

variable {α β : Type}

/-- Only a sum or a product past its width can stop the computation. -/
def Completes (computation : Except ε α) : Prop :=
  Ends (fun failure => failure = HasPanic.panic .overflow) (fun _ => True)
    computation

theorem completes_iff {computation : Except ε α} : Completes computation ↔
    (∃ value, computation = .ok value) ∨
      computation = .error (HasPanic.panic .overflow) := by
  cases computation <;> simp [Completes, Ends]

theorem Completes.bind {action : Except ε α} {next : α → Except ε β}
    (first : Completes action)
    (second : ∀ value, action = .ok value → Completes (next value)) :
    Completes (action >>= next) :=
  Ends.bind_returned first second

theorem Completes.pure (value : α) :
    Completes (Pure.pure value : Except ε α) := trivial

theorem Completes.require {condition : Prop} [Decidable condition]
    {failure : ε} (holds : condition) :
    Completes (Outcome.require condition failure) :=
  Ends.require holds trivial

theorem Completes.fetch {items : List α} {index : Nat} {failure : ε}
    (inside : index < items.length) :
    Completes (Outcome.fetch items index failure) :=
  Ends.fetch inside trivial

theorem completes_uadd : Completes (uadd left right : Except ε Nat) :=
  ends_uadd (fun _ => rfl) fun _ => trivial

theorem completes_uadd32 : Completes (uadd32 left right : Except ε Nat) :=
  ends_uadd32 (fun _ => rfl) fun _ => trivial

theorem completes_umul : Completes (umul left right : Except ε Nat) :=
  ends_umul (fun _ => rfl) fun _ => trivial

theorem completes_umul64 : Completes (umul64 left right : Except ε Nat) :=
  ends_umul64 (fun _ => rfl) fun _ => trivial

theorem completes_usub (enough : right ≤ left) :
    Completes (usub left right : Except ε Nat) :=
  ends_usub enough trivial

theorem completes_udiv (nonzero : right ≠ 0) :
    Completes (udiv left right : Except ε Nat) :=
  ends_udiv nonzero trivial

theorem completes_umod (nonzero : right ≠ 0) :
    Completes (umod left right : Except ε Nat) := by
  unfold umod
  rw [if_neg nonzero]
  exact trivial

end Completes

/-- Panics can be told apart. -/
class LawfulPanic (ε : Type) [HasPanic ε] : Prop where
  injective : Function.Injective (HasPanic.panic : Panic → ε)

section Fits

variable {α β : Type}

/-- No sum and no product of the computation leaves its width.  One that
completes and fits returns. -/
def Fits (computation : Except ε α) : Prop :=
  Ends (fun failure => failure ≠ HasPanic.panic .overflow) (fun _ => True)
    computation

theorem returns_of_fits {computation : Except ε α}
    (completes : Completes computation) (fits : Fits computation) :
    ∃ value, computation = .ok value := by
  rcases completes_iff.mp completes with returned | overflow
  · exact returned
  · exact absurd rfl (fits.of_error overflow)

theorem Fits.bind {action : Except ε α} {next : α → Except ε β}
    (first : Fits action)
    (second : ∀ value, action = .ok value → Fits (next value)) :
    Fits (action >>= next) :=
  Ends.bind_returned first second

theorem Fits.pure (value : α) : Fits (Pure.pure value : Except ε α) := trivial

theorem Fits.of_ok {computation : Except ε α} {value : α}
    (returned : computation = .ok value) : Fits computation := by
  rw [returned]
  exact trivial

/-- The value of a first computation that returns is known to the rest. -/
theorem Fits.next {action : Except ε α} {next : α → Except ε β} {value : α}
    (returned : action = .ok value) (continues : Fits (next value)) :
    Fits (action >>= next) := by
  rw [returned]
  exact continues

theorem Fits.require {condition : Prop} [Decidable condition] {failure : ε}
    (other : failure ≠ HasPanic.panic .overflow) :
    Fits (Outcome.require condition failure) := by
  unfold Outcome.require
  split
  · exact trivial
  · exact other

theorem Fits.fetch {items : List α} {index : Nat} {failure : ε}
    (other : failure ≠ HasPanic.panic .overflow) :
    Fits (Outcome.fetch items index failure) := by
  unfold Outcome.fetch
  split
  · exact trivial
  · exact other

theorem fits_uadd (within : left + right < wordLimit) :
    Fits (uadd left right : Except ε Nat) :=
  .of_ok (uadd_of_lt within)

theorem fits_uadd32 (within : left + right < uint32Limit) :
    Fits (uadd32 left right : Except ε Nat) :=
  .of_ok (if_pos within)

theorem fits_umul (within : left * right < wordLimit) :
    Fits (umul left right : Except ε Nat) :=
  .of_ok (umul_of_lt within)

theorem fits_umul64 (within : left * right < uint64Limit) :
    Fits (umul64 left right : Except ε Nat) :=
  .of_ok (if_pos within)

variable [LawfulPanic ε]

theorem panic_ne {one other : Panic} (different : one ≠ other) :
    (HasPanic.panic one : ε) ≠ HasPanic.panic other :=
  LawfulPanic.injective.ne different

theorem fits_usub : Fits (usub left right : Except ε Nat) := by
  unfold usub
  split
  · exact trivial
  · exact panic_ne (by decide)

theorem Fits.difference {next : Nat → Except ε α}
    (continues : Fits (next (left - right))) :
    Fits (usub left right >>= next) :=
  .bind fits_usub fun _ returned => by
    rw [← (usub_eq_ok.mp returned).2]
    exact continues

theorem fits_udiv : Fits (udiv left right : Except ε Nat) := by
  unfold udiv
  split
  · exact panic_ne (by decide)
  · exact trivial

theorem fits_umod : Fits (umod left right : Except ε Nat) := by
  unfold umod
  split
  · exact panic_ne (by decide)
  · exact trivial

end Fits

end Checked
