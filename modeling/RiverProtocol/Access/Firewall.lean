import RiverProtocol.Allowlist
import RiverProtocol.Failure
import RiverProtocol.Lib.Abi

/-!
# The firewall

A contract that stands in for the administrator of another one.  Its own
functions come first: a message that selects one of them is never forwarded,
whatever it would mean to the destination.
-/

namespace RiverProtocol

open Outcome

/-- A contract by what a call does: from a sender, with ether and a message.
It calls nobody back. -/
abbrev Contract (Storage : Type) : Type :=
  Address → Nat → Bytes → Storage → Except Failure (Bytes × Storage)

namespace Message

def wordAt (data : Bytes) (offset : Nat) : Except Failure Nat :=
  match Abi.wordAt data offset with
  | some word => .ok word
  | none => .error .bare

def addressAt (data : Bytes) (offset : Nat) : Except Failure Address := do
  let word ← wordAt data offset
  require (word < 2 ^ 160) .bare
  return .ofNat word

def boolAt (data : Bytes) (offset : Nat) : Except Failure Bool := do
  let word ← wordAt data offset
  require (word ≤ 1) .bare
  return word == 1

/-- A `bytes4` stands in the first bytes of its word. -/
def selectorAt (data : Bytes) (offset : Nat) : Except Failure Nat := do
  let word ← wordAt data offset
  require (word % 2 ^ 224 = 0) .bare
  return word / 2 ^ 224

/-- The functions that take no ether. -/
def notPayable (value : Nat) : Except Failure Unit :=
  require (value = 0) .bare

def ofAddress (account : Address) : Bytes := Abi.toBytes 32 account.val

def ofBool (answer : Bool) : Bytes :=
  Abi.toBytes 32 (if answer then 1 else 0)

end Message

open Message

/-- A `bytes4` is the number of its bytes. -/
structure Firewall where
  administrable : Administrable
  executor : Address
  destination : Address
  executorCanCall : Nat → Bool

namespace Firewall

inductive Function where
  | proposeAdmin
  | acceptAdmin
  | getAdmin
  | getPendingAdmin
  | executor
  | destination
  | executorCanCall
  | setExecutor
  | allowExecutor
  | version
  deriving DecidableEq, Repr

def Function.selector : Function → Nat
  | .proposeAdmin => 0x147bf6c4
  | .acceptAdmin => 0x0e18b681
  | .getAdmin => 0x6e9960c3
  | .getPendingAdmin => 0xd0468156
  | .executor => 0xc34c08e5
  | .destination => 0xb269681d
  | .executorCanCall => 0xf0e70dab
  | .setExecutor => 0x1c3c0ea8
  | .allowExecutor => 0x02aaa9cc
  | .version => 0x54fd4d50

def interface : Abi.Interface Function :=
  { functions := [.proposeAdmin, .acceptAdmin, .getAdmin, .getPendingAdmin,
      .executor, .destination, .executorCanCall, .setExecutor, .allowExecutor,
      .version]
    selector := Function.selector }

/-- The constructor. -/
def create (admin executor destination : Address)
    (executorCallableSelectors : List Nat) : Except Error Firewall := do
  notZeroAddress executor
  notZeroAddress destination
  notZeroAddress admin
  return { administrable := { admin := admin, pendingAdmin := .zero }
           executor := executor
           destination := destination
           executorCanCall := fun selector =>
             executorCallableSelectors.contains selector }

def onlyAdminOrExecutor (firewall : Firewall) (sender : Address) :
    Except Error Unit :=
  require (firewall.administrable.admin = sender ∨ sender = firewall.executor)
    (.unauthorized sender)

def setExecutor (firewall : Firewall) (sender newExecutor : Address) :
    Except Error Firewall := do
  firewall.onlyAdminOrExecutor sender
  notZeroAddress newExecutor
  return { firewall with executor := newExecutor }

def allowExecutor (firewall : Firewall) (sender : Address)
    (functionSelector : Nat) (executorCanCall : Bool) :
    Except Error Firewall := do
  firewall.administrable.onlyAdmin sender
  return { firewall with
    executorCanCall := Function.update firewall.executorCanCall
      functionSelector executorCanCall }

/-- What one of the firewall's own functions answers and leaves. -/
def run (firewall : Firewall) (function : Function) (sender : Address)
    (data : Bytes) : Except Failure (Bytes × Firewall) :=
  match function with
  | .proposeAdmin => do
    let newAdmin ← addressAt data 4
    let administrable ← raising
      (firewall.administrable.proposeAdmin sender newAdmin)
    return ([], { firewall with administrable := administrable })
  | .acceptAdmin => do
    let administrable ← raising (firewall.administrable.acceptAdmin sender)
    return ([], { firewall with administrable := administrable })
  | .getAdmin => return (ofAddress firewall.administrable.admin, firewall)
  | .getPendingAdmin =>
    return (ofAddress firewall.administrable.pendingAdmin, firewall)
  | .executor => return (ofAddress firewall.executor, firewall)
  | .destination => return (ofAddress firewall.destination, firewall)
  | .executorCanCall => do
    let selector ← selectorAt data 4
    return (ofBool (firewall.executorCanCall selector), firewall)
  | .setExecutor => do
    let newExecutor ← addressAt data 4
    let firewall ← raising (firewall.setExecutor sender newExecutor)
    return ([], firewall)
  | .allowExecutor => do
    let functionSelector ← selectorAt data 4
    let executorCanCall ← boolAt data 36
    let firewall ← raising
      (firewall.allowExecutor sender functionSelector executorCanCall)
    return ([], firewall)
  | .version =>
    -- the string "1.3.0"
    return (Abi.toBytes 32 32 ++ Abi.toBytes 32 5 ++
      [0x31, 0x2e, 0x33, 0x2e, 0x30] ++ List.replicate 27 0, firewall)

/-- `_checkCallerRole` -/
def checkCallerRole (firewall : Firewall) (sender : Address) (data : Bytes) :
    Except Error Unit :=
  require (sender = firewall.administrable.admin ∨
    firewall.executorCanCall (Abi.signature data) = true ∧
      sender = firewall.executor) (.unauthorized sender)

/-- A call of the firewall at its address; the destination is called in its
name. -/
def call {Storage : Type} (contract : Contract Storage) (self : Address)
    (firewall : Firewall) (storage : Storage) (sender : Address)
    (value : Nat) (data : Bytes) :
    Except Failure (Bytes × Firewall × Storage) :=
  match interface.called data with
  | some function => do
    notPayable value
    let (answer, firewall) ← firewall.run function sender data
    return (answer, firewall, storage)
  | none => do
    raising (firewall.checkCallerRole sender data)
    let (answer, storage) ← contract self value data storage
    return (answer, firewall, storage)

variable {Storage : Type} {contract : Contract Storage}
  {self sender : Address} {firewall after : Firewall}
  {storage changed : Storage} {value : Nat} {data answer : Bytes}

theorem create_ok {admin executor destination : Address}
    {selectors : List Nat}
    (returned : create admin executor destination selectors =
      .ok firewall) :
    firewall.administrable = { admin := admin, pendingAdmin := .zero } ∧
      firewall.executor = executor ∧
      ∀ selector, firewall.executorCanCall selector = true →
        selector ∈ selectors := by
  simp only [create, bind_eq_ok, pure_eq_ok] at returned
  obtain ⟨-, -, -, -, -, -, rfl⟩ := returned
  exact ⟨rfl, rfl, fun selector listed => List.contains_iff_mem.mp listed⟩

/-- What an account changes of the firewall itself. -/
inductive Change (firewall : Firewall) (sender : Address) :
    Firewall → Prop where
  | answered : Change firewall sender firewall
  | proposed (newAdmin : Address) : sender = firewall.administrable.admin →
      Change firewall sender { firewall with
        administrable :=
          { firewall.administrable with pendingAdmin := newAdmin } }
  | accepted : sender = firewall.administrable.pendingAdmin →
      firewall.administrable.pendingAdmin ≠ .zero →
      Change firewall sender { firewall with
        administrable := { admin := firewall.administrable.pendingAdmin
                           pendingAdmin := .zero } }
  | executor (newExecutor : Address) : newExecutor ≠ .zero →
      firewall.administrable.admin = sender ∨ sender = firewall.executor →
      Change firewall sender { firewall with executor := newExecutor }
  | allowed (executorCanCall : Nat → Bool) :
      sender = firewall.administrable.admin →
      Change firewall sender { firewall with
        executorCanCall := executorCanCall }

theorem run_change {function : Function}
    (returned : firewall.run function sender data = .ok (answer, after)) :
    Change firewall sender after := by
  cases function with
  | proposeAdmin =>
      simp only [run, Administrable.proposeAdmin, Administrable.onlyAdmin,
        bind_eq_ok, raising_eq_ok, require_eq_ok, pure_eq_ok,
        Prod.mk.injEq] at returned
      obtain ⟨newAdmin, -, -, ⟨-, authorized, rfl⟩, -, rfl⟩ := returned
      exact .proposed newAdmin authorized
  | acceptAdmin =>
      simp only [run, Administrable.acceptAdmin, notZeroAddress, bind_eq_ok,
        raising_eq_ok, require_eq_ok, pure_eq_ok, Prod.mk.injEq] at returned
      obtain ⟨-, ⟨-, authorized, -, nonzero, rfl⟩, -, rfl⟩ := returned
      exact .accepted authorized nonzero
  | getAdmin | getPendingAdmin | executor | destination | version =>
      simp only [run, pure_eq_ok, Prod.mk.injEq] at returned
      rw [← returned.2]
      exact .answered
  | executorCanCall =>
      simp only [run, bind_eq_ok, pure_eq_ok, Prod.mk.injEq] at returned
      obtain ⟨-, -, -, rfl⟩ := returned
      exact .answered
  | setExecutor =>
      simp only [run, Firewall.setExecutor, onlyAdminOrExecutor,
        notZeroAddress, bind_eq_ok, raising_eq_ok, require_eq_ok, pure_eq_ok,
        Prod.mk.injEq] at returned
      obtain ⟨newExecutor, -, -, ⟨-, authorized, -, nonzero, rfl⟩, -, rfl⟩ :=
        returned
      exact .executor newExecutor nonzero authorized
  | allowExecutor =>
      simp only [run, Firewall.allowExecutor, Administrable.onlyAdmin,
        bind_eq_ok, raising_eq_ok, require_eq_ok, pure_eq_ok,
        Prod.mk.injEq] at returned
      obtain ⟨_, -, _, -, -, ⟨-, authorized, rfl⟩, -, rfl⟩ := returned
      exact .allowed _ authorized

/-- A call either stays inside the firewall or is forwarded unchanged. -/
inductive Effect (contract : Contract Storage) (self : Address)
    (firewall : Firewall) (storage : Storage) (sender : Address)
    (data : Bytes) : Firewall → Storage → Prop where
  | own {after : Firewall} : Change firewall sender after →
      Effect contract self firewall storage sender data after storage
  | forwarded {changed : Storage} {value : Nat} {answer : Bytes} :
      interface.called data = none →
      (sender = firewall.administrable.admin ∨
        firewall.executorCanCall (Abi.signature data) = true ∧
          sender = firewall.executor) →
      contract self value data storage = .ok (answer, changed) →
      Effect contract self firewall storage sender data firewall changed

theorem call_effect
    (returned : firewall.call contract self storage sender value data =
      .ok (answer, after, changed)) :
    Effect contract self firewall storage sender data after changed := by
  rw [call] at returned
  split at returned
  · simp only [bind_eq_ok, pure_eq_ok, Prod.exists, Prod.mk.injEq] at returned
    obtain ⟨-, -, _, _, returned, -, rfl, rfl⟩ := returned
    exact .own (run_change returned)
  · rename_i missed
    simp only [checkCallerRole, bind_eq_ok, raising_eq_ok, require_eq_ok,
      pure_eq_ok, Prod.exists, Prod.mk.injEq] at returned
    obtain ⟨-, authorized, _, _, forwarded, -, rfl, rfl⟩ := returned
    exact .forwarded missed authorized forwarded

theorem forwarded_ne (missed : interface.called data = none)
    (function : Function) : Abi.signature data ≠ function.selector := by
  intro same
  rcases Nat.lt_or_ge data.length 4 with short | long
  · -- no selector ends in a zero byte
    have padded := Abi.signature_of_short short
    rw [same] at padded
    cases function <;> exact absurd padded (by decide)
  · exact interface.called_eq_none missed long function
      (by cases function <;> decide) same.symm

end Firewall

end RiverProtocol
