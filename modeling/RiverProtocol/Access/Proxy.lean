import Mathlib.Logic.Relation
import RiverProtocol.Access.Firewall

/-!
# The pausable proxy behind its firewall

The transparent proxy of the contracts.  Its administrator is a firewall whose
executor may pause: as long as the administrator of the firewall sends
nothing, what is paused stays as it is.
-/

namespace RiverProtocol

open Outcome Message

/-- The accounts with code, by what the code does to the storage of the proxy
that runs it. -/
abbrev Code (Storage : Type) : Type := Address → Option (Contract Storage)

/-- The storage is that of the implementation, which touches no slot of the
proxy. -/
structure TUPProxy (Storage : Type) where
  admin : Address
  implementation : Address
  paused : Bool
  storage : Storage

namespace TUPProxy

inductive Function where
  | paused
  | pause
  | unpause
  deriving DecidableEq, Repr

def Function.selector : Function → Nat
  | .paused => 0x5c975abb
  | .pause => 0x8456cb59
  | .unpause => 0x3f4ba83a

def interface : Abi.Interface Function :=
  { functions := [.paused, .pause, .unpause], selector := Function.selector }

/-- The selectors of `ITransparentUpgradeableProxy`. -/
inductive AdminFunction where
  | upgradeTo
  | upgradeToAndCall
  | changeAdmin
  | admin
  | implementation
  deriving DecidableEq, Repr

def AdminFunction.selector : AdminFunction → Nat
  | .upgradeTo => 0x3659cfe6
  | .upgradeToAndCall => 0x4f1ef286
  | .changeAdmin => 0x8f283970
  | .admin => 0xf851a440
  | .implementation => 0x5c60da1b

/-- The function of the administrator with a signature, found in this order
and without looking at the length of the message. -/
def adminFunction (data : Bytes) : Option AdminFunction :=
  [.upgradeTo, .upgradeToAndCall, .changeAdmin, .admin, .implementation].find?
    fun function : AdminFunction => function.selector = Abi.signature data

/-- A `bytes` argument, whose offset is counted from the first argument. -/
def bytesAt (data : Bytes) (place : Nat) : Except Failure Bytes := do
  let offset ← wordAt data (4 + place)
  require (offset < 2 ^ 64) .bare
  let length ← wordAt data (4 + offset)
  require (length < 2 ^ 64) .memoryTooLarge
  require (36 + offset + length ≤ data.length) .bare
  return (data.drop (36 + offset)).take length

section

variable {Storage : Type} (code : Code Storage)

def setImplementation (proxy : TUPProxy Storage)
    (newImplementation : Address) : Except Failure (TUPProxy Storage) := do
  require ((code newImplementation).isSome = true)
    (.message "ERC1967: new implementation is not a contract")
  return { proxy with implementation := newImplementation }

def changeAdmin (proxy : TUPProxy Storage) (newAdmin : Address) :
    Except Failure (TUPProxy Storage) := do
  require (newAdmin ≠ .zero)
    (.message "ERC1967: new admin is the zero address")
  return { proxy with admin := newAdmin }

/-- A `delegatecall`: an account without code answers nothing. -/
def delegate (proxy : TUPProxy Storage) (implementation sender : Address)
    (value : Nat) (data : Bytes) :
    Except Failure (Bytes × TUPProxy Storage) :=
  match code implementation with
  | some logic => do
    let (answer, storage) ← logic sender value data proxy.storage
    return (answer, { proxy with storage := storage })
  | none => return ([], proxy)

/-- `Address.functionDelegateCall` names a failure that has no data. -/
def functionDelegateCall (proxy : TUPProxy Storage)
    (implementation sender : Address) (value : Nat) (data : Bytes) :
    Except Failure (TUPProxy Storage) :=
  match proxy.delegate code implementation sender value data with
  | .ok (_, proxy) => .ok proxy
  | .error .bare =>
    .error (.message "Address: low-level delegate call failed")
  | .error failure => .error failure

def upgradeToAndCall (proxy : TUPProxy Storage) (sender : Address)
    (value : Nat) (newImplementation : Address) (data : Bytes)
    (forceCall : Bool) : Except Failure (TUPProxy Storage) := do
  let proxy ← proxy.setImplementation code newImplementation
  if data.length > 0 ∨ forceCall = true then
    proxy.functionDelegateCall code newImplementation sender value data
  else return proxy

/-- The constructor. -/
def create (storage : Storage) (sender : Address) (value : Nat)
    (logic admin : Address) (data : Bytes) :
    Except Failure (TUPProxy Storage) := do
  let proxy : TUPProxy Storage :=
    { admin := .zero, implementation := .zero, paused := false
      storage := storage }
  let proxy ← proxy.upgradeToAndCall code sender value logic data false
  proxy.changeAdmin admin

/-- What the administrator calls: the implementation is out of reach. -/
def dispatch (proxy : TUPProxy Storage) (sender : Address) (value : Nat)
    (data : Bytes) : Except Failure (Bytes × TUPProxy Storage) :=
  match adminFunction data with
  | some .upgradeTo => do
    notPayable value
    let newImplementation ← addressAt data 4
    let proxy ← proxy.upgradeToAndCall code sender value newImplementation []
      false
    return ([], proxy)
  | some .upgradeToAndCall => do
    let newImplementation ← addressAt data 4
    let arguments ← bytesAt data 32
    let proxy ← proxy.upgradeToAndCall code sender value newImplementation
      arguments true
    return ([], proxy)
  | some .changeAdmin => do
    notPayable value
    let newAdmin ← addressAt data 4
    let proxy ← proxy.changeAdmin newAdmin
    return ([], proxy)
  | some .admin => do
    notPayable value
    return (ofAddress proxy.admin, proxy)
  | some .implementation => do
    notPayable value
    return (ofAddress proxy.implementation, proxy)
  | none => .error (.message
      "TransparentUpgradeableProxy: admin cannot fallback to proxy target")

def beforeFallback (proxy : TUPProxy Storage) (sender : Address) :
    Except Failure Unit :=
  require (proxy.paused = false ∨ sender = .zero) .callWhenPaused

def fallback (proxy : TUPProxy Storage) (sender : Address) (value : Nat)
    (data : Bytes) : Except Failure (Bytes × TUPProxy Storage) :=
  if sender = proxy.admin then proxy.dispatch code sender value data
  else do
    proxy.beforeFallback sender
    proxy.delegate code proxy.implementation sender value data

/-- The modifier `ifAdmin`, on a function that sets the pause. -/
def setPaused (proxy : TUPProxy Storage) (paused : Bool) (sender : Address)
    (value : Nat) (data : Bytes) :
    Except Failure (Bytes × TUPProxy Storage) := do
  notPayable value
  if sender = proxy.admin then return ([], { proxy with paused := paused })
  else proxy.fallback code sender value data

/-- A call of the proxy. -/
def call : Contract (TUPProxy Storage) := fun sender value data proxy =>
  match interface.called data with
  | some .paused => do
    notPayable value
    return (ofBool proxy.paused, proxy)
  | some .pause => proxy.setPaused code true sender value data
  | some .unpause => proxy.setPaused code false sender value data
  | none => proxy.fallback code sender value data

end

variable {Storage : Type} {code : Code Storage} {proxy after : TUPProxy Storage}
  {sender implementation : Address} {value : Nat} {data answer : Bytes}

/-- What anybody but the administrator leaves. -/
structure Spared (before after : TUPProxy Storage) : Prop where
  admin : after.admin = before.admin
  implementation : after.implementation = before.implementation
  paused : after.paused = before.paused
  storage : before.paused = true → after.storage = before.storage

theorem Spared.refl (proxy : TUPProxy Storage) : Spared proxy proxy :=
  ⟨rfl, rfl, rfl, fun _ => rfl⟩

theorem delegate_ok
    (returned : proxy.delegate code implementation sender value data =
      .ok (answer, after)) :
    ∃ storage, after = { proxy with storage := storage } := by
  rw [delegate] at returned
  split at returned
  · simp only [bind_eq_ok, pure_eq_ok, Prod.exists, Prod.mk.injEq] at returned
    obtain ⟨_, storage, -, -, rfl⟩ := returned
    exact ⟨storage, rfl⟩
  · simp only [pure_eq_ok, Prod.mk.injEq] at returned
    exact ⟨proxy.storage, returned.2.symm⟩

theorem fallback_spared (other : sender ≠ proxy.admin)
    (external : sender ≠ .zero)
    (returned : proxy.fallback code sender value data = .ok (answer, after)) :
    Spared proxy after := by
  simp only [fallback, if_neg other, beforeFallback, bind_eq_ok,
    require_eq_ok] at returned
  obtain ⟨-, running, returned⟩ := returned
  obtain ⟨storage, rfl⟩ := delegate_ok returned
  refine ⟨rfl, rfl, rfl, fun paused => ?_⟩
  rcases running with unpaused | zero
  · rw [paused] at unpaused
    cases unpaused
  · exact absurd zero external

/-- Nobody but the administrator changes more than what the implementation
stores, and nothing of that while paused. -/
theorem call_spared (other : sender ≠ proxy.admin)
    (external : sender ≠ .zero)
    (returned : call code sender value data proxy = .ok (answer, after)) :
    Spared proxy after := by
  rw [call] at returned
  split at returned
  · simp only [bind_eq_ok, pure_eq_ok, Prod.mk.injEq] at returned
    obtain ⟨-, -, -, rfl⟩ := returned
    exact .refl proxy
  · simp only [setPaused, if_neg other, bind_eq_ok] at returned
    obtain ⟨-, -, returned⟩ := returned
    exact fallback_spared other external returned
  · simp only [setPaused, if_neg other, bind_eq_ok] at returned
    obtain ⟨-, -, returned⟩ := returned
    exact fallback_spared other external returned
  · exact fallback_spared other external returned

theorem called_pause
    (signed : Abi.signature data = Function.pause.selector) :
    interface.called data = some .pause := by
  refine interface.called_of_mem (by decide) (by decide) ?_ signed.symm
  by_contra short
  have padded := Abi.signature_of_short (Nat.not_le.mp short)
  rw [signed] at padded
  exact absurd padded (by decide)

theorem call_pause (signed : Abi.signature data = Function.pause.selector)
    (admin : sender = proxy.admin) :
    call code sender value data proxy =
      if value = 0 then .ok ([], { proxy with paused := true })
      else .error .bare := by
  rw [call, called_pause signed]
  simp only [setPaused, if_pos admin, notPayable, require]
  split <;> rfl

end TUPProxy

/-- A proxy and the firewall in front of it. -/
structure Fenced (Storage : Type) where
  firewall : Firewall
  proxy : TUPProxy Storage

namespace Fenced

open TUPProxy (Function)

variable {Storage : Type}

/-- A transaction of an account: it calls the proxy, or the firewall. -/
inductive StepBy (code : Code Storage) (wall sender : Address) :
    Fenced Storage → Fenced Storage → Prop where
  | proxy {fenced : Fenced Storage} {proxy : TUPProxy Storage} {value : Nat}
      {data answer : Bytes} :
      TUPProxy.call code sender value data fenced.proxy =
        .ok (answer, proxy) →
      StepBy code wall sender fenced { fenced with proxy := proxy }
  | firewall {fenced : Fenced Storage} {firewall : Firewall}
      {proxy : TUPProxy Storage} {value : Nat} {data answer : Bytes} :
      fenced.firewall.call (TUPProxy.call code) wall fenced.proxy sender value
        data = .ok (answer, firewall, proxy) →
      StepBy code wall sender fenced { firewall := firewall, proxy := proxy }

/-- A run of transactions of accounts that are not the firewall, in which
whoever administers the firewall sends nothing. -/
abbrev RunOfOthers (code : Code Storage) (wall : Address) :
    Fenced Storage → Fenced Storage → Prop :=
  Relation.ReflTransGen fun before after => ∃ sender, sender ≠ .zero ∧
    sender ≠ wall ∧ sender ≠ before.firewall.administrable.admin ∧
    StepBy code wall sender before after

/-- The firewall administers the proxy, and its executor may pause at most. -/
structure Guarding (wall : Address) (fenced : Fenced Storage) : Prop where
  admin : fenced.proxy.admin = wall
  executor : ∀ selector, fenced.firewall.executorCanCall selector = true →
    selector = Function.pause.selector

theorem guarding_created {wall admin executor destination : Address}
    {code : Code Storage} {storage : Storage} {sender logic : Address}
    {value : Nat} {data : Bytes} {firewall : Firewall}
    {proxy : TUPProxy Storage}
    (first : Firewall.create admin executor destination
      [Function.pause.selector] = .ok firewall)
    (second : TUPProxy.create code storage sender value logic wall data =
      .ok proxy) :
    Guarding wall { firewall := firewall, proxy := proxy } := by
  refine ⟨?_, fun selector allowed => ?_⟩
  · simp only [TUPProxy.create, TUPProxy.changeAdmin, bind_eq_ok,
      require_eq_ok, pure_eq_ok] at second
    obtain ⟨between, -, -, -, rfl⟩ := second
    rfl
  · exact List.mem_singleton.mp ((Firewall.create_ok first).2.2 _ allowed)

/-- What a run without the administrator of the firewall keeps. -/
structure Kept (before after : Fenced Storage) : Prop where
  admin : after.proxy.admin = before.proxy.admin
  implementation : after.proxy.implementation = before.proxy.implementation
  permissions : after.firewall.executorCanCall =
    before.firewall.executorCanCall
  administrable :
    after.firewall.administrable = before.firewall.administrable ∨
    before.firewall.administrable.pendingAdmin ≠ .zero ∧
    after.firewall.administrable =
      { admin := before.firewall.administrable.pendingAdmin
        pendingAdmin := .zero }
  frozen : before.proxy.paused = true →
    after.proxy.paused = true ∧ after.proxy.storage = before.proxy.storage

variable {code : Code Storage} {wall sender : Address}
  {start fenced after : Fenced Storage}

theorem Kept.refl (fenced : Fenced Storage) : Kept fenced fenced :=
  ⟨rfl, rfl, rfl, .inl rfl, fun paused => ⟨paused, rfl⟩⟩

theorem Guarding.later (guarding : Guarding wall start)
    (kept : Kept start fenced) : Guarding wall fenced :=
  ⟨kept.admin.trans guarding.admin, fun selector => by
    rw [kept.permissions]
    exact guarding.executor selector⟩

/-- A firewall changed by others than its administrator. -/
theorem Kept.change {firewall : Firewall} (kept : Kept start fenced)
    (other : sender ≠ fenced.firewall.administrable.admin)
    (change : fenced.firewall.Change sender firewall) :
    Kept start { fenced with firewall := firewall } := by
  obtain ⟨admin, implementation, permissions, administrable, frozen⟩ := kept
  cases change with
  | answered =>
      exact ⟨admin, implementation, permissions, administrable, frozen⟩
  | proposed _ authorized => exact absurd authorized other
  | accepted _ nonzero =>
      refine ⟨admin, implementation, permissions, .inr ?_, frozen⟩
      rcases administrable with same | ⟨_, accepted⟩
      · rw [same] at nonzero ⊢
        exact ⟨nonzero, rfl⟩
      · rw [accepted] at nonzero
        exact absurd rfl nonzero
  | executor =>
      exact ⟨admin, implementation, permissions, administrable, frozen⟩
  | allowed _ authorized => exact absurd authorized other

theorem Kept.spared {proxy : TUPProxy Storage} (kept : Kept start fenced)
    (spared : TUPProxy.Spared fenced.proxy proxy) :
    Kept start { fenced with proxy := proxy } := by
  refine ⟨spared.admin.trans kept.admin,
    spared.implementation.trans kept.implementation, kept.permissions,
    kept.administrable, fun paused => ?_⟩
  obtain ⟨paused, same⟩ := kept.frozen paused
  exact ⟨spared.paused.trans paused, (spared.storage paused).trans same⟩

theorem Kept.paused (kept : Kept start fenced) :
    Kept start { fenced with proxy :=
      { fenced.proxy with paused := true } } :=
  ⟨kept.admin, kept.implementation, kept.permissions, kept.administrable,
    fun paused => ⟨rfl, (kept.frozen paused).2⟩⟩

theorem StepBy.kept (guarding : Guarding wall start)
    (step : StepBy code wall sender fenced after) (external : sender ≠ .zero)
    (outside : sender ≠ wall)
    (other : sender ≠ fenced.firewall.administrable.admin)
    (kept : Kept start fenced) : Kept start after := by
  have guarded := guarding.later kept
  cases step with
  | proxy returned =>
      refine kept.spared (TUPProxy.call_spared ?_ external returned)
      rw [guarded.admin]
      exact outside
  | firewall returned =>
      cases Firewall.call_effect returned with
      | own change => exact kept.change other change
      | forwarded _ authorized forwarded =>
          obtain admin | ⟨callable, -⟩ := authorized
          · exact absurd admin other
          -- the executor was let through, so this is a pause
          have signed := guarded.executor _ callable
          rw [TUPProxy.call_pause signed guarded.admin.symm] at forwarded
          split at forwarded
          · cases forwarded
            exact kept.paused
          · cases forwarded

theorem RunOfOthers.kept (guarding : Guarding wall start)
    (run : RunOfOthers code wall start fenced) : Kept start fenced := by
  induction run with
  | refl => exact .refl start
  | tail _ step kept =>
      obtain ⟨sender, external, outside, other, step⟩ := step
      exact step.kept guarding external outside other kept

theorem pauses (guarding : Guarding wall fenced)
    (allowed : fenced.firewall.executorCanCall Function.pause.selector =
      true) :
    fenced.firewall.call (TUPProxy.call code) wall fenced.proxy
      fenced.firewall.executor 0 (Abi.encode Function.pause.selector []) =
      .ok ([], fenced.firewall, { fenced.proxy with paused := true }) := by
  have signed : Abi.signature (Abi.encode Function.pause.selector []) =
      Function.pause.selector := by decide +kernel
  have missed : Firewall.interface.called
      (Abi.encode Function.pause.selector []) = none := by decide +kernel
  rw [Firewall.call, missed]
  simp only [Firewall.checkCallerRole, signed, allowed, and_self, or_true,
    require, if_true, raising, Except.mapError, ok_bind,
    TUPProxy.call_pause signed guarding.admin.symm]
  rfl

/-- A proxy behind a firewall whose executor may call `pause` and nothing
else.  As long as whoever administers the firewall sends nothing, no account
upgrades the proxy, takes it over or lets the executor call more; once paused
it stays paused and its storage does not change.  And the executor can pause
at any time. -/
theorem pause_holds (guarding : Guarding wall start)
    (run : RunOfOthers code wall start fenced) :
    Kept start fenced ∧
    (start.firewall.executorCanCall Function.pause.selector = true →
      fenced.firewall.call (TUPProxy.call code) wall fenced.proxy
        fenced.firewall.executor 0 (Abi.encode Function.pause.selector []) =
        .ok ([], fenced.firewall, { fenced.proxy with paused := true })) := by
  have kept := RunOfOthers.kept guarding run
  refine ⟨kept, fun allowed => pauses (guarding.later kept) ?_⟩
  rw [kept.permissions]
  exact allowed

/-- An implementation, at account 7, that counts its calls. -/
def sampleCode : Code Nat := fun account =>
  if account = .ofNat 7 then some fun _ _ _ count => .ok ([], count + 1)
  else none

/-- Deployed with the firewall at account 5, its administrator 1 and its
executor 2. -/
def sampleFenced : Except Failure (Fenced Nat) := do
  let firewall ← raising (Firewall.create (.ofNat 1) (.ofNat 2) (.ofNat 6)
    [Function.pause.selector])
  let proxy ← TUPProxy.create sampleCode 0 (.ofNat 9) 0 (.ofNat 7) (.ofNat 5)
    []
  return { firewall := firewall, proxy := proxy }

/-- Account 4 calls the proxy, then the executor pauses it. -/
def samplePaused (start : Fenced Nat) : Except Failure (Fenced Nat) := do
  let (_, proxy) ← TUPProxy.call sampleCode (.ofNat 4) 0 [] start.proxy
  let (_, firewall, proxy) ← start.firewall.call (TUPProxy.call sampleCode)
    (.ofNat 5) proxy (.ofNat 2) 0 (Abi.encode Function.pause.selector [])
  return { firewall := firewall, proxy := proxy }

/-- The one call before the pause is the last one counted. -/
theorem pause_holds_sample :
    ∃ start paused : Fenced Nat, sampleFenced = .ok start ∧
      samplePaused start = .ok paused ∧ paused.proxy.paused = true ∧
      paused.proxy.storage = 1 ∧
      ∀ later, RunOfOthers sampleCode (.ofNat 5) paused later →
        later.proxy.paused = true ∧ later.proxy.storage = 1 := by
  have checked : returns sampleFenced (fun start =>
      returns (samplePaused start) fun paused =>
        paused.proxy.paused && paused.proxy.storage == 1 &&
          start.firewall.administrable.admin == .ofNat 1) = true := by
    decide +kernel
  simp only [returns_iff, Bool.and_eq_true, beq_iff_eq] at checked
  obtain ⟨start, deployed, paused, returned, ⟨stopped, counted⟩, admin⟩ :=
    checked
  have guarding : Guarding (.ofNat 5) start := by
    simp only [sampleFenced, bind_eq_ok, raising_eq_ok, pure_eq_ok]
      at deployed
    obtain ⟨firewall, first, proxy, second, rfl⟩ := deployed
    exact guarding_created first second
  have run : RunOfOthers sampleCode (.ofNat 5) start paused := by
    simp only [samplePaused, bind_eq_ok, pure_eq_ok, Prod.exists] at returned
    obtain ⟨_, proxy, called, _, firewall, final, pausing, rfl⟩ := returned
    have other : Address.ofNat 2 ≠ start.firewall.administrable.admin := by
      rw [admin]
      decide
    have another : Address.ofNat 4 ≠ start.firewall.administrable.admin := by
      rw [admin]
      decide
    exact .tail (.tail .refl ⟨.ofNat 4, by decide, by decide, another,
      .proxy called⟩) ⟨.ofNat 2, by decide, by decide, other,
      .firewall pausing⟩
  obtain ⟨kept, -⟩ := pause_holds guarding run
  refine ⟨start, paused, deployed, returned, stopped, counted,
    fun later further => ?_⟩
  obtain ⟨again, -⟩ := pause_holds (guarding.later kept) further
  obtain ⟨still, same⟩ := again.frozen stopped
  exact ⟨still, same.trans counted⟩

end Fenced

end RiverProtocol
