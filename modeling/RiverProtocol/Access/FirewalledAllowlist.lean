import RiverProtocol.Access.Firewall
import RiverProtocol.Allowlist.Roles

/-!
# The allowlist behind its firewall

The firewall holds all roles of the allowlist.  Since it answers `proposeAdmin`
and `acceptAdmin` itself, the administration of the allowlist never leaves it;
and without its administrator the executor does no more than its selectors say.
-/

namespace RiverProtocol

open Outcome Message

namespace Allowlist

def Call.selector : Call → Nat
  | .proposeAdmin _ => 0x147bf6c4
  | .acceptAdmin => 0x0e18b681
  | .setAllower _ => 0x4679a9e1
  | .setDenier _ => 0x91df0bdf
  | .setAllowPermissions _ _ => 0x55b3cd94
  | .setDenyPermissions _ _ => 0x3daee8e9

/-- The compiled decoder of messages: the calls that write, each with its
selector, and what all other messages answer. -/
structure Decoder where
  decode : Bytes → Option Call
  view : Bytes → Allowlist → Except Failure Bytes
  selects : ∀ data call, decode data = some call →
    Abi.signature data = call.selector

/-- The allowlist as a contract, after both initializers. -/
def contract (decoder : Decoder) : Contract Allowlist :=
  fun sender value data allowlist =>
    match decoder.decode data with
    | some call => do
      notPayable value
      let allowlist ← raising (call.apply allowlist sender)
      return ([], allowlist)
    | none => do
      let answer ← decoder.view data allowlist
      return (answer, allowlist)

variable {decoder : Decoder} {allowlist after : Allowlist}
  {sender wall : Address} {value : Nat} {data answer : Bytes}

theorem contract_ok
    (returned : contract decoder sender value data allowlist =
      .ok (answer, after)) :
    after = allowlist ∨ ∃ call, Abi.signature data = Call.selector call ∧
      call.apply allowlist sender = .ok after := by
  rw [contract] at returned
  split at returned
  · rename_i call decoded
    simp only [bind_eq_ok, raising_eq_ok, pure_eq_ok, Prod.mk.injEq]
      at returned
    obtain ⟨-, -, _, returned, -, rfl⟩ := returned
    exact .inr ⟨call, decoder.selects data call decoded, returned⟩
  · simp only [bind_eq_ok, pure_eq_ok, Prod.mk.injEq] at returned
    obtain ⟨_, -, -, rfl⟩ := returned
    exact .inl rfl

end Allowlist

/-- An allowlist and the firewall in front of it. -/
structure GuardedAllowlist where
  firewall : Firewall
  allowlist : Allowlist

namespace GuardedAllowlist

open Allowlist (Call Decoder SameDenials NoNewRights Effect)

/-- A transaction of an account: it calls the allowlist, or the firewall. -/
inductive StepBy (decoder : Decoder) (wall sender : Address) :
    GuardedAllowlist → GuardedAllowlist → Prop where
  | allowlist {guarded : GuardedAllowlist} {allowlist : Allowlist}
      {value : Nat} {data answer : Bytes} :
      Allowlist.contract decoder sender value data guarded.allowlist =
        .ok (answer, allowlist) →
      StepBy decoder wall sender guarded { guarded with allowlist := allowlist }
  | firewall {guarded : GuardedAllowlist} {firewall : Firewall}
      {allowlist : Allowlist} {value : Nat} {data answer : Bytes} :
      guarded.firewall.call (Allowlist.contract decoder) wall
        guarded.allowlist sender value data =
        .ok (answer, firewall, allowlist) →
      StepBy decoder wall sender guarded
        { firewall := firewall, allowlist := allowlist }

/-- A run of transactions of accounts that are not the firewall. -/
abbrev Run (decoder : Decoder) (wall : Address) :
    GuardedAllowlist → GuardedAllowlist → Prop :=
  Relation.ReflTransGen fun before after => ∃ sender, sender ≠ wall ∧
    StepBy decoder wall sender before after

/-- A run in which whoever administers the firewall sends nothing. -/
abbrev RunOfOthers (decoder : Decoder) (wall : Address) :
    GuardedAllowlist → GuardedAllowlist → Prop :=
  Relation.ReflTransGen fun before after => ∃ sender, sender ≠ wall ∧
    sender ≠ before.firewall.administrable.admin ∧
    StepBy decoder wall sender before after

variable {decoder : Decoder} {wall sender : Address}
  {start guarded after : GuardedAllowlist}

/-- What a transaction does: the allowlist is called by its sender, or by the
firewall on behalf of whom it lets through. -/
theorem StepBy.effect (step : StepBy decoder wall sender guarded after) :
    (guarded.firewall.Change sender after.firewall ∧
      after.allowlist = guarded.allowlist) ∨
    after.firewall = guarded.firewall ∧
      (after.allowlist = guarded.allowlist ∨
      (∃ call, Call.apply call guarded.allowlist sender =
        .ok after.allowlist) ∨
      ∃ call, (∀ function : Firewall.Function,
          Call.selector call ≠ function.selector) ∧
        (sender = guarded.firewall.administrable.admin ∨
          guarded.firewall.executorCanCall call.selector = true ∧
            sender = guarded.firewall.executor) ∧
        call.apply guarded.allowlist wall = .ok after.allowlist) := by
  cases step with
  | allowlist returned =>
      refine .inr ⟨rfl, ?_⟩
      rcases Allowlist.contract_ok returned with same | ⟨call, -, called⟩
      · exact .inl same
      · exact .inr (.inl ⟨call, called⟩)
  | firewall returned =>
      cases Firewall.call_effect returned with
      | own change => exact .inl ⟨change, rfl⟩
      | forwarded missed authorized forwarded =>
          refine .inr ⟨rfl, ?_⟩
          rcases Allowlist.contract_ok forwarded with same | ⟨call, signed,
            called⟩
          · exact .inl same
          · rw [signed] at authorized
            refine .inr (.inr ⟨call, fun function => ?_, authorized, called⟩)
            rw [← signed]
            exact Firewall.forwarded_ne missed function

/-- The firewall administers the allowlist, and nobody is proposed. -/
def Administered (wall : Address) (guarded : GuardedAllowlist) : Prop :=
  guarded.allowlist.administrable = { admin := wall, pendingAdmin := .zero }

instance (guarded : GuardedAllowlist) : Decidable (Administered wall guarded) :=
  inferInstanceAs (Decidable (_ = _))

theorem administered_of_effect {allowlist : Allowlist}
    (administered : Administered wall guarded)
    (outside : sender ≠ wall)
    (effect : Effect guarded.allowlist sender allowlist) :
    allowlist.administrable = guarded.allowlist.administrable ∧
      allowlist.allower = guarded.allowlist.allower ∧
      allowlist.denier = guarded.allowlist.denier := by
  rw [Administered] at administered
  cases effect with
  | proposed _ authorized =>
      rw [administered] at authorized
      exact absurd authorized outside
  | accepted _ nonzero =>
      rw [administered] at nonzero
      exact absurd rfl nonzero
  | allower _ authorized | denier _ authorized =>
      rw [administered] at authorized
      exact absurd authorized outside
  | allowed | denied => exact ⟨rfl, rfl, rfl⟩

/-- A call that is neither of the two the firewall answers itself. -/
theorem administrable_of_call {allowlist : Allowlist} {call : Call}
    (notOwn : ∀ function : Firewall.Function,
      call.selector ≠ function.selector)
    (returned : call.apply guarded.allowlist sender = .ok allowlist) :
    allowlist.administrable = guarded.allowlist.administrable := by
  cases call with
  | proposeAdmin => exact absurd rfl (notOwn .proposeAdmin)
  | acceptAdmin => exact absurd rfl (notOwn .acceptAdmin)
  | setAllower newAllower =>
      simp only [Call.apply, Allowlist.setAllower, bind_eq_ok, pure_eq_ok]
        at returned
      obtain ⟨-, -, -, -, rfl⟩ := returned
      rfl
  | setDenier newDenier =>
      simp only [Call.apply, Allowlist.setDenier, bind_eq_ok, pure_eq_ok]
        at returned
      obtain ⟨-, -, -, -, rfl⟩ := returned
      rfl
  | setAllowPermissions =>
      obtain ⟨-, _, rfl, -⟩ := Allowlist.setAllowPermissions_ok returned
      rfl
  | setDenyPermissions =>
      obtain ⟨-, _, rfl, -⟩ := Allowlist.setDenyPermissions_ok returned
      rfl

theorem StepBy.administered (step : StepBy decoder wall sender guarded after)
    (outside : sender ≠ wall) (administered : Administered wall guarded) :
    Administered wall after := by
  obtain ⟨-, same⟩ | ⟨-, same | ⟨call, called⟩ | ⟨call, notOwn, -, called⟩⟩ :=
    step.effect
  · rw [Administered, same]
    exact administered
  · rw [Administered, same]
    exact administered
  · rw [Administered, (administered_of_effect administered outside
      (Allowlist.Call.apply_effect called)).1]
    exact administered
  · rw [Administered, administrable_of_call notOwn called]
    exact administered

/-- What the executor of a firewall that may not name the roles can do. -/
structure Bounded (wall : Address) (start now : GuardedAllowlist) :
    Prop where
  allower : now.allowlist.allower = wall
  denier : now.allowlist.denier = wall
  denials : start.firewall.executorCanCall
    (Call.setDenyPermissions [] []).selector = false →
    SameDenials start.allowlist now.allowlist
  rights : start.firewall.executorCanCall
    (Call.setAllowPermissions [] []).selector = false →
    NoNewRights start.allowlist now.allowlist

/-- The executor may not name the roles. -/
structure Restricted (firewall : Firewall) : Prop where
  allower : firewall.executorCanCall (Call.setAllower .zero).selector = false
  denier : firewall.executorCanCall (Call.setDenier .zero).selector = false

theorem Bounded.same (bounded : Bounded wall start guarded)
    (same : after.allowlist = guarded.allowlist) :
    Bounded wall start after := by
  obtain ⟨allower, denier, denials, rights⟩ := bounded
  rw [← same] at allower denier denials rights
  exact ⟨allower, denier, denials, rights⟩

/-- A call from outside changes nothing. -/
theorem Bounded.direct {call : Call} (bounded : Bounded wall start guarded)
    (administered : Administered wall guarded) (outside : sender ≠ wall)
    (called : call.apply guarded.allowlist sender = .ok after.allowlist) :
    Bounded wall start after := by
  rw [Administered] at administered
  generalize changed : after.allowlist = allowlist at called
  cases Allowlist.Call.apply_effect called with
  | proposed _ authorized | allower _ authorized | denier _ authorized =>
      rw [administered] at authorized
      exact absurd authorized outside
  | accepted _ nonzero =>
      rw [administered] at nonzero
      exact absurd rfl nonzero
  | allowed authorized =>
      rw [bounded.allower] at authorized
      exact absurd authorized outside
  | denied authorized =>
      rw [bounded.denier] at authorized
      exact absurd authorized outside

/-- A call forwarded for the executor stays within its selectors. -/
theorem Bounded.forwarded {call : Call} (bounded : Bounded wall start guarded)
    (restricted : Restricted start.firewall)
    (notOwn : ∀ function : Firewall.Function,
      call.selector ≠ function.selector)
    (callable : start.firewall.executorCanCall call.selector = true)
    (called : call.apply guarded.allowlist wall = .ok after.allowlist) :
    Bounded wall start after := by
  obtain ⟨allower, denier, denials, rights⟩ := bounded
  generalize changed : after.allowlist = allowlist at called
  cases call with
  | proposeAdmin => exact absurd rfl (notOwn .proposeAdmin)
  | acceptAdmin => exact absurd rfl (notOwn .acceptAdmin)
  | setAllower => exact absurd callable (Bool.eq_false_iff.mp
      restricted.allower)
  | setDenier => exact absurd callable (Bool.eq_false_iff.mp
      restricted.denier)
  | setAllowPermissions =>
      obtain ⟨-, permissions, rfl, each⟩ :=
        Allowlist.setAllowPermissions_ok called
      refine ⟨by rw [changed]; exact allower, by rw [changed]; exact denier,
        fun barred => ?_, fun barred => absurd callable
          (Bool.eq_false_iff.mp barred)⟩
      rw [changed]
      exact (denials barred).allow each
  | setDenyPermissions =>
      obtain ⟨-, permissions, rfl, each⟩ :=
        Allowlist.setDenyPermissions_ok called
      refine ⟨by rw [changed]; exact allower, by rw [changed]; exact denier,
        fun barred => absurd callable (Bool.eq_false_iff.mp barred),
        fun barred => ?_⟩
      rw [changed]
      exact (rights barred).deny each

theorem executorCanCall_of_change {firewall changed : Firewall}
    (change : firewall.Change sender changed)
    (other : sender ≠ firewall.administrable.admin) :
    changed.executorCanCall = firewall.executorCanCall := by
  cases change with
  | answered | proposed | accepted | executor => rfl
  | allowed _ authorized => exact absurd authorized other

theorem RunOfOthers.bounded (administered : Administered wall start)
    (restricted : Restricted start.firewall)
    (allower : start.allowlist.allower = wall)
    (denier : start.allowlist.denier = wall)
    (run : RunOfOthers decoder wall start guarded) :
    Administered wall guarded ∧
      guarded.firewall.executorCanCall = start.firewall.executorCanCall ∧
      Bounded wall start guarded := by
  induction run with
  | refl => exact ⟨administered, rfl, allower, denier,
      fun _ _ => ⟨rfl, fun _ => rfl⟩, fun _ _ => .inl rfl⟩
  | tail _ step induction =>
      obtain ⟨sender, outside, other, step⟩ := step
      obtain ⟨administered, callable, bounded⟩ := induction
      refine ⟨step.administered outside administered, ?_⟩
      obtain ⟨change, same⟩ | ⟨firewall, same | ⟨call, called⟩ |
        ⟨call, notOwn, authorized, called⟩⟩ := step.effect
      · exact ⟨(executorCanCall_of_change change other).trans callable,
          bounded.same same⟩
      · exact ⟨by rw [firewall, callable], bounded.same same⟩
      · exact ⟨by rw [firewall, callable],
          bounded.direct administered outside called⟩
      · rcases authorized with admin | ⟨allowed, -⟩
        · exact absurd admin other
        · rw [callable] at allowed
          exact ⟨by rw [firewall, callable],
            bounded.forwarded restricted notOwn allowed called⟩

/-- An allowlist all of whose roles its firewall holds.  The firewall remains
its administrator, whatever anybody sends, its own administrator included.
As long as the latter sends nothing and the executor may name neither role,
the firewall keeps both: an executor that may not deny changes no denial, one
that may not allow gives no right. -/
theorem firewall_keeps_allowlist (administered : Administered wall start) :
    (∀ later, Run decoder wall start later → Administered wall later) ∧
    (Restricted start.firewall → start.allowlist.allower = wall →
      start.allowlist.denier = wall →
      ∀ later, RunOfOthers decoder wall start later →
        Bounded wall start later) := by
  refine ⟨fun later run => ?_, fun restricted allower denier later run =>
    (RunOfOthers.bounded administered restricted allower denier run).2.2⟩
  induction run with
  | refl => exact administered
  | tail _ step induction =>
      obtain ⟨sender, outside, step⟩ := step
      exact step.administered outside induction

/-- The decoder on messages that give one account its permissions: after the
selector stand the offsets of two arrays, then the arrays. -/
def decodeOne (data : Bytes) : Option Call :=
  if Abi.signature data = 0x55b3cd94 then do
    let account ← Abi.wordAt data (4 + 3 * 32)
    let permissions ← Abi.wordAt data (4 + 5 * 32)
    return .setAllowPermissions [.ofNat account] [permissions]
  else none

def sampleDecoder : Decoder :=
  { decode := decodeOne
    view := fun _ _ => .error .bare
    selects := by
      intro data call decoded
      rw [decodeOne] at decoded
      split at decoded
      · rename_i signed
        simp only [Option.bind_eq_bind, Option.bind_eq_some_iff,
          Option.pure_def, Option.some.injEq] at decoded
        obtain ⟨_, -, _, -, rfl⟩ := decoded
        exact signed
      · cases decoded }

/-- Behind the firewall at account 5 with administrator 1 and executor 2, who
may call `setAllowPermissions`. -/
def sampleGuarded : Except Error GuardedAllowlist := do
  let firewall ← Firewall.create (.ofNat 1) (.ofNat 2) (.ofNat 6) [0x55b3cd94]
  return { firewall := firewall
           allowlist :=
             { administrable := { admin := .ofNat 5, pendingAdmin := .zero }
               allower := .ofNat 5
               denier := .ofNat 5
               permissions := fun _ => 0 } }

/-- The executor lets account 4 deposit. -/
def sampleAllowed (start : GuardedAllowlist) :
    Except Failure GuardedAllowlist := do
  let (_, firewall, allowlist) ← start.firewall.call
    (Allowlist.contract sampleDecoder) (.ofNat 5) start.allowlist (.ofNat 2) 0
    (Abi.encode 0x55b3cd94 [64, 128, 1, 4, 1, 1])
  return { firewall := firewall, allowlist := allowlist }

/-- The executor gives account 4 its right, and can deny nobody. -/
theorem firewall_keeps_allowlist_sample :
    ∃ start allowed : GuardedAllowlist, sampleGuarded = .ok start ∧
      sampleAllowed start = .ok allowed ∧
      allowed.allowlist.isAllowed (.ofNat 4) 1 = true ∧
      Administered (.ofNat 5) allowed ∧
      ∀ later, RunOfOthers sampleDecoder (.ofNat 5) allowed later →
        later.allowlist.isDenied (.ofNat 4) = false := by
  have checked : returns sampleGuarded (fun start =>
      returns (sampleAllowed start) fun allowed =>
        allowed.allowlist.isAllowed (.ofNat 4) 1 &&
        decide (Administered (.ofNat 5) allowed) &&
        decide (allowed.allowlist.allower = .ofNat 5) &&
        decide (allowed.allowlist.denier = .ofNat 5) &&
        !allowed.firewall.executorCanCall 0x4679a9e1 &&
        !allowed.firewall.executorCanCall 0x91df0bdf &&
        !allowed.firewall.executorCanCall 0x3daee8e9 &&
        !allowed.allowlist.isDenied (.ofNat 4)) = true := by
    decide +kernel
  simp only [returns_iff, Bool.and_eq_true, decide_eq_true_eq,
    Bool.not_eq_true'] at checked
  obtain ⟨start, deployed, allowed, returned, ⟨⟨⟨⟨⟨⟨⟨given, administered⟩,
    allower⟩, denier⟩, noAllower⟩, noDenier⟩, noDenial⟩, spared⟩⟩ := checked
  obtain ⟨-, bounded⟩ := @firewall_keeps_allowlist sampleDecoder _ _
    administered
  refine ⟨start, allowed, deployed, returned, given, administered,
    fun later run => ?_⟩
  have denials := (bounded ⟨noAllower, noDenier⟩ allower denier later
    run).denials noDenial
  rw [(denials _).1]
  exact spared

end GuardedAllowlist

end RiverProtocol
