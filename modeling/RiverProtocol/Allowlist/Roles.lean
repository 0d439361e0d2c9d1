import Mathlib.Logic.Relation
import RiverProtocol.Access.Initializable
import RiverProtocol.Allowlist

/-!
# Who can do what on the allowlist

The allowlist after its two initializers, over runs of calls by any accounts.
The denier alone denies and lifts a denial, the allower alone gives a right,
and the administrator alone moves the two roles.
-/

namespace RiverProtocol

open Outcome LibAllowlistMasks

namespace Allowlist

/-- A proxy of the contract. -/
abbrev Deployed : Type := Versioned Allowlist

namespace Deployed

/-- A proxy none of whose storage is written. -/
def fresh : Deployed :=
  { version := 0
    state :=
      { administrable := { admin := .zero, pendingAdmin := .zero }
        allower := .zero
        denier := .zero
        permissions := fun _ => 0 } }

def initAllowlistV1 (deployed : Deployed) (admin allower : Address) :
    Except Failure Deployed :=
  deployed.init 0 fun allowlist => do
    notZeroAddress admin
    notZeroAddress allower
    return { allowlist with
      administrable := { allowlist.administrable with admin := admin }
      allower := allower }

def initAllowlistV1_1 (deployed : Deployed) (denier : Address) :
    Except Failure Deployed :=
  deployed.init 1 fun allowlist => do
    notZeroAddress denier
    return { allowlist with denier := denier }

/-- A transaction of an account. -/
inductive StepBy (sender : Address) : Deployed → Deployed → Prop where
  | initAllowlistV1 {deployed after : Deployed} {admin allower : Address} :
      initAllowlistV1 deployed admin allower = .ok after →
      StepBy sender deployed after
  | initAllowlistV1_1 {deployed after : Deployed} {denier : Address} :
      initAllowlistV1_1 deployed denier = .ok after →
      StepBy sender deployed after
  | call {deployed : Deployed} {allowlist : Allowlist} {call : Call} :
      call.apply deployed.state sender = .ok allowlist →
      StepBy sender deployed { deployed with state := allowlist }

def Reachable (deployed : Deployed) : Prop :=
  Relation.ReflTransGen (fun before after => ∃ sender,
    StepBy sender before after) fresh deployed

/-- A run that lacks the transactions of whoever has the role at the time. -/
abbrev RunWithout (role : Allowlist → Address) : Deployed → Deployed → Prop :=
  Relation.ReflTransGen fun before after => ∃ sender,
    sender ≠ role before.state ∧ StepBy sender before after

end Deployed

/-- A denied account holds the deny bit and no other. -/
def WellFormed (allowlist : Allowlist) : Prop :=
  ∀ account, allowlist.isDenied account = true →
    allowlist.permissions account = denyMask

/-- What the allower makes of the permissions of an account. -/
inductive Allowing (before : Nat) : Nat → Prop where
  | kept : Allowing before before
  | allowed {permissions : Nat} : includes before denyMask = false →
      includes permissions denyMask = false → Allowing before permissions

/-- What the denier makes of the permissions of an account. -/
inductive Denying (before : Nat) : Nat → Prop where
  | kept : Denying before before
  | denied : Denying before denyMask
  | lifted : Denying before 0

theorem Denying.from_denied {before after : Nat}
    (denying : Denying denyMask after) : Denying before after := by
  cases denying with
  | kept | denied => exact .denied
  | lifted => exact .lifted

theorem Denying.from_lifted {before after : Nat}
    (denying : Denying 0 after) : Denying before after := by
  cases denying with
  | kept | lifted => exact .lifted
  | denied => exact .denied

variable {allowlist after : Allowlist} {sender account : Address}
  {entries : List (Address × Nat)} {call : Call}

theorem allowEach_ok (returned : allowEach entries allowlist = .ok after) :
    ∃ permissions, after = { allowlist with permissions := permissions } ∧
      ∀ account, Allowing (allowlist.permissions account)
        (permissions account) := by
  induction entries generalizing allowlist with
  | nil =>
      rw [allowEach, pure_eq_ok] at returned
      exact ⟨allowlist.permissions, returned.symm, fun _ => .kept⟩
  | cons entry rest induction =>
      obtain ⟨named, permissions⟩ := entry
      simp only [allowEach, bind_eq_ok, require_eq_ok] at returned
      obtain ⟨-, -, -, spared, -, harmless, returned⟩ := returned
      obtain ⟨final, rfl, each⟩ := induction returned
      refine ⟨final, rfl, fun account => ?_⟩
      have last := each account
      simp only [setPermissions] at last
      by_cases same : account = named
      · subst same
        rw [Function.update_self] at last
        cases last with
        | kept => exact .allowed spared harmless
        | allowed _ harmless => exact .allowed spared harmless
      · rwa [Function.update_of_ne same] at last

theorem denyEach_ok (returned : denyEach entries allowlist = .ok after) :
    ∃ permissions, after = { allowlist with permissions := permissions } ∧
      ∀ account, Denying (allowlist.permissions account)
        (permissions account) := by
  induction entries generalizing allowlist with
  | nil =>
      rw [denyEach, pure_eq_ok] at returned
      exact ⟨allowlist.permissions, returned.symm, fun _ => .kept⟩
  | cons entry rest induction =>
      obtain ⟨named, permissions⟩ := entry
      simp only [denyEach, bind_eq_ok] at returned
      obtain ⟨-, -, returned⟩ := returned
      obtain ⟨final, rfl, each⟩ := induction returned
      refine ⟨final, rfl, fun account => ?_⟩
      have last := each account
      simp only [setPermissions] at last
      by_cases same : account = named
      · subst same
        rw [Function.update_self] at last
        split at last
        · exact last.from_denied
        · exact last.from_lifted
      · rwa [Function.update_of_ne same] at last

/-- What a call of an account does, by the role it needs. -/
inductive Effect (allowlist : Allowlist) (sender : Address) :
    Allowlist → Prop where
  | proposed (newAdmin : Address) : sender = allowlist.administrable.admin →
      Effect allowlist sender { allowlist with
        administrable :=
          { allowlist.administrable with pendingAdmin := newAdmin } }
  | accepted : sender = allowlist.administrable.pendingAdmin →
      allowlist.administrable.pendingAdmin ≠ .zero →
      Effect allowlist sender { allowlist with
        administrable := { admin := allowlist.administrable.pendingAdmin
                           pendingAdmin := .zero } }
  | allower (newAllower : Address) :
      sender = allowlist.administrable.admin →
      Effect allowlist sender { allowlist with allower := newAllower }
  | denier (newDenier : Address) : sender = allowlist.administrable.admin →
      Effect allowlist sender { allowlist with denier := newDenier }
  | allowed {permissions : Address → Nat} : sender = allowlist.allower →
      (∀ account, Allowing (allowlist.permissions account)
        (permissions account)) →
      Effect allowlist sender { allowlist with permissions := permissions }
  | denied {permissions : Address → Nat} : sender = allowlist.denier →
      (∀ account, Denying (allowlist.permissions account)
        (permissions account)) →
      Effect allowlist sender { allowlist with permissions := permissions }

theorem setAllowPermissions_ok {accounts : List Address}
    {permissions : List Nat}
    (returned : allowlist.setAllowPermissions sender accounts permissions =
      .ok after) :
    sender = allowlist.allower ∧
      ∃ permissions, after = { allowlist with permissions := permissions } ∧
        ∀ account, Allowing (allowlist.permissions account)
          (permissions account) := by
  simp only [setAllowPermissions, bind_eq_ok, require_eq_ok] at returned
  obtain ⟨-, authorized, -, -, -, -, returned⟩ := returned
  exact ⟨authorized, allowEach_ok returned⟩

theorem setDenyPermissions_ok {accounts : List Address}
    {permissions : List Nat}
    (returned : allowlist.setDenyPermissions sender accounts permissions =
      .ok after) :
    sender = allowlist.denier ∧
      ∃ permissions, after = { allowlist with permissions := permissions } ∧
        ∀ account, Denying (allowlist.permissions account)
          (permissions account) := by
  simp only [setDenyPermissions, bind_eq_ok, require_eq_ok] at returned
  obtain ⟨-, authorized, -, -, -, -, returned⟩ := returned
  exact ⟨authorized, denyEach_ok returned⟩

theorem Call.apply_effect
    (returned : call.apply allowlist sender = .ok after) :
    Effect allowlist sender after := by
  cases call with
  | proposeAdmin newAdmin =>
      simp only [Call.apply, Administrable.proposeAdmin,
        Administrable.onlyAdmin, bind_eq_ok, require_eq_ok, pure_eq_ok]
        at returned
      obtain ⟨-, ⟨-, authorized, rfl⟩, rfl⟩ := returned
      exact .proposed newAdmin authorized
  | acceptAdmin =>
      simp only [Call.apply, Administrable.acceptAdmin, notZeroAddress,
        bind_eq_ok, require_eq_ok, pure_eq_ok] at returned
      obtain ⟨-, ⟨-, authorized, -, nonzero, rfl⟩, rfl⟩ := returned
      exact .accepted authorized nonzero
  | setAllower newAllower =>
      simp only [Call.apply, Allowlist.setAllower, Administrable.onlyAdmin,
        bind_eq_ok, require_eq_ok, pure_eq_ok] at returned
      obtain ⟨-, authorized, -, -, rfl⟩ := returned
      exact .allower newAllower authorized
  | setDenier newDenier =>
      simp only [Call.apply, Allowlist.setDenier, Administrable.onlyAdmin,
        bind_eq_ok, require_eq_ok, pure_eq_ok] at returned
      obtain ⟨-, authorized, -, -, rfl⟩ := returned
      exact .denier newDenier authorized
  | setAllowPermissions accounts permissions =>
      obtain ⟨authorized, final, rfl, each⟩ := setAllowPermissions_ok returned
      exact .allowed authorized each
  | setDenyPermissions accounts permissions =>
      obtain ⟨authorized, final, rfl, each⟩ := setDenyPermissions_ok returned
      exact .denied authorized each

theorem includes_zero : includes 0 denyMask = false := by decide

theorem Effect.wellFormed (effect : Effect allowlist sender after)
    (wellFormed : allowlist.WellFormed) : after.WellFormed := by
  cases effect with
  | proposed | accepted | allower | denier => exact wellFormed
  | @allowed permissions _ each =>
      intro account denied
      have set := each account
      simp only [isDenied] at denied ⊢
      generalize permissions account = final at set denied ⊢
      cases set with
      | kept => exact wellFormed account denied
      | allowed _ harmless =>
          rw [harmless] at denied
          exact nomatch denied
  | @denied permissions _ each =>
      intro account denied
      have set := each account
      simp only [isDenied] at denied ⊢
      generalize permissions account = final at set denied ⊢
      cases set with
      | kept => exact wellFormed account denied
      | denied => rfl
      | lifted =>
          rw [includes_zero] at denied
          exact nomatch denied

namespace Deployed

variable {deployed later : Deployed}

/-- Initializers write no permission. -/
theorem StepBy.wellFormed (step : StepBy sender deployed later)
    (wellFormed : deployed.state.WellFormed) :
    later.state.WellFormed := by
  cases step with
  | initAllowlistV1 returned =>
      obtain ⟨-, allowlist, initialized, rfl⟩ :=
        Versioned.init_eq_ok.mp returned
      simp only [bind_eq_ok, pure_eq_ok] at initialized
      obtain ⟨-, -, -, -, rfl⟩ := initialized
      exact wellFormed
  | initAllowlistV1_1 returned =>
      obtain ⟨-, allowlist, initialized, rfl⟩ :=
        Versioned.init_eq_ok.mp returned
      simp only [bind_eq_ok, pure_eq_ok] at initialized
      obtain ⟨-, -, rfl⟩ := initialized
      exact wellFormed
  | call returned => exact (Call.apply_effect returned).wellFormed wellFormed

theorem Reachable.wellFormed (reachable : Reachable deployed) :
    deployed.state.WellFormed := by
  induction reachable with
  | refl =>
      intro account denied
      simp only [fresh, isDenied, includes_zero] at denied
      exact nomatch denied
  | tail _ step wellFormed =>
      obtain ⟨sender, step⟩ := step
      exact step.wellFormed wellFormed

theorem StepBy.effect (step : StepBy sender deployed later)
    (initialized : deployed.version = 2) :
    later.version = 2 ∧
      Effect deployed.state sender later.state := by
  cases step with
  | initAllowlistV1 returned =>
      have current := (Versioned.init_eq_ok.mp returned).1
      omega
  | initAllowlistV1_1 returned =>
      have current := (Versioned.init_eq_ok.mp returned).1
      omega
  | call returned => exact ⟨initialized, Call.apply_effect returned⟩

theorem RunWithout.induct {role : Allowlist → Address}
    {motive : Allowlist → Prop} (run : RunWithout role deployed later)
    (initialized : deployed.version = 2) (start : motive deployed.state)
    (step : ∀ {before after : Allowlist} {sender : Address},
      sender ≠ role before → Effect before sender after → motive before →
      motive after) : motive later.state := by
  have kept : later.version = 2 ∧ motive later.state := by
    induction run with
    | refl => exact ⟨initialized, start⟩
    | tail _ taken induction =>
        obtain ⟨sender, other, taken⟩ := taken
        obtain ⟨version, effect⟩ := taken.effect induction.1
        exact ⟨version, step other effect induction.2⟩
  exact kept.2

end Deployed

/-- What others than the denier keep. -/
def SameDenials (before after : Allowlist) : Prop :=
  ∀ account, after.isDenied account = before.isDenied account ∧
    (before.isDenied account = true →
      after.permissions account = before.permissions account)

/-- What others than the allower can make of permissions. -/
def NoNewRights (before after : Allowlist) : Prop :=
  ∀ account, after.permissions account = before.permissions account ∨
    after.permissions account = 0 ∨ after.permissions account = denyMask

/-- What others than the administrator keep. -/
def SameRoles (before after : Allowlist) : Prop :=
  after.allower = before.allower ∧ after.denier = before.denier ∧
    (after.administrable = before.administrable ∨
      before.administrable.pendingAdmin ≠ .zero ∧
      after.administrable =
        { admin := before.administrable.pendingAdmin, pendingAdmin := .zero })

variable {before : Allowlist}

theorem SameDenials.allow {permissions : Address → Nat}
    (same : SameDenials before allowlist)
    (each : ∀ account, Allowing (allowlist.permissions account)
      (permissions account)) :
    SameDenials before { allowlist with permissions := permissions } := by
  intro account
  have set := each account
  have earlier := same account
  simp only [isDenied] at earlier ⊢
  generalize permissions account = final at set ⊢
  cases set with
  | kept => exact earlier
  | allowed spared harmless =>
      rw [spared] at earlier
      refine ⟨harmless.trans earlier.1, fun denied => ?_⟩
      rw [← earlier.1] at denied
      cases denied

theorem NoNewRights.deny {permissions : Address → Nat}
    (within : NoNewRights before allowlist)
    (each : ∀ account, Denying (allowlist.permissions account)
      (permissions account)) :
    NoNewRights before { allowlist with permissions := permissions } := by
  intro account
  have set := each account
  have earlier := within account
  dsimp only
  generalize permissions account = final at set ⊢
  cases set with
  | kept => exact earlier
  | denied => exact .inr (.inr rfl)
  | lifted => exact .inr (.inl rfl)

theorem Effect.sameDenials (effect : Effect allowlist sender after)
    (other : sender ≠ allowlist.denier)
    (same : SameDenials before allowlist) : SameDenials before after := by
  cases effect with
  | proposed | accepted | allower | denier => exact same
  | allowed _ each => exact same.allow each
  | denied authorized => exact absurd authorized other

theorem Effect.noNewRights (effect : Effect allowlist sender after)
    (other : sender ≠ allowlist.allower)
    (within : NoNewRights before allowlist) : NoNewRights before after := by
  cases effect with
  | proposed | accepted | allower | denier => exact within
  | allowed authorized => exact absurd authorized other
  | denied _ each => exact within.deny each

theorem Effect.sameRoles (effect : Effect allowlist sender after)
    (other : sender ≠ allowlist.administrable.admin)
    (same : SameRoles before allowlist) : SameRoles before after := by
  cases effect with
  | proposed _ authorized => exact absurd authorized other
  | accepted _ nonzero =>
      obtain ⟨allower, denier, kept | ⟨_, accepted⟩⟩ := same
      · rw [kept] at nonzero ⊢
        exact ⟨allower, denier, .inr ⟨nonzero, rfl⟩⟩
      · -- there is nobody left to accept
        rw [accepted] at nonzero
        exact absurd rfl nonzero
  | allower _ authorized => exact absurd authorized other
  | denier _ authorized => exact absurd authorized other
  | allowed | denied => exact same

/-- On a deployed allowlist a denied account holds no right, whatever calls
were made.  Once both initializers ran, and as long as whoever is the denier
sends nothing, the same accounts stay denied and keep their permissions; as
long as the allower sends nothing, permissions are kept or reset; and as long
as the administrator sends nothing, the roles stay, but for a proposed
administrator who accepts. -/
theorem roles_separated {deployed : Deployed}
    (reachable : Deployed.Reachable deployed) :
    deployed.state.WellFormed ∧
    (deployed.version = 2 →
      (∀ later, Deployed.RunWithout (·.denier) deployed later →
        SameDenials deployed.state later.state) ∧
      (∀ later, Deployed.RunWithout (·.allower) deployed later →
        NoNewRights deployed.state later.state) ∧
      ∀ later, Deployed.RunWithout (·.administrable.admin) deployed later →
        SameRoles deployed.state later.state) := by
  refine ⟨Deployed.Reachable.wellFormed reachable, fun initialized =>
    ⟨fun later run => ?_, fun later run => ?_, fun later run => ?_⟩⟩
  · exact Deployed.RunWithout.induct run initialized
      (fun _ => ⟨rfl, fun _ => rfl⟩) fun other effect => effect.sameDenials other
  · exact Deployed.RunWithout.induct run initialized (fun _ => .inl rfl)
      fun other effect => effect.noNewRights other
  · exact Deployed.RunWithout.induct run initialized ⟨rfl, rfl, .inl rfl⟩
      fun other effect => effect.sameRoles other

/-- Initialized with administrator 1, allower 2 and denier 3; account 4 may
deposit, then account 5 is denied. -/
def sampleDeployed : Except Failure Deployed := do
  let deployed ← Deployed.initAllowlistV1 .fresh (.ofNat 1) (.ofNat 2)
  Deployed.initAllowlistV1_1 deployed (.ofNat 3)

def sampleCalls (allowlist : Allowlist) : Except Error Allowlist := do
  let allowlist ← (Call.setAllowPermissions [.ofNat 4]
    [depositMask]).apply allowlist (.ofNat 2)
  (Call.setDenyPermissions [.ofNat 5] [denyMask]).apply allowlist (.ofNat 3)

/-- Whether the sample runs, and what it leaves. -/
def sampleChecked : Bool :=
  match sampleDeployed with
  | .ok deployed =>
    deployed.version == 2 &&
      returns (sampleCalls deployed.state) fun allowlist =>
        allowlist.isAllowed (.ofNat 4) depositMask &&
          allowlist.isDenied (.ofNat 5)
  | .error _ => false

/-- The denied account holds no right, and account 4 keeps its one until the
allower or the denier acts. -/
theorem roles_separated_sample :
    ∃ deployed : Deployed, deployed.state.isDenied (.ofNat 5) = true ∧
      deployed.state.isAllowed (.ofNat 4) depositMask = true ∧
      deployed.state.permissions (.ofNat 5) = denyMask ∧
      ∀ later, Deployed.RunWithout (·.denier) deployed later →
        later.state.isDenied (.ofNat 5) = true := by
  have checked : sampleChecked = true := by decide +kernel
  simp only [sampleChecked] at checked
  cases initialized : sampleDeployed with
  | error failure =>
      rw [initialized] at checked
      exact nomatch checked
  | ok deployed =>
      rw [initialized] at checked
      simp only [Bool.and_eq_true, beq_iff_eq, returns_iff] at checked
      obtain ⟨version, allowlist, returned, allowed, denied⟩ := checked
      simp only [sampleDeployed, bind_eq_ok] at initialized
      obtain ⟨first, firstInit, secondInit⟩ := initialized
      simp only [sampleCalls, bind_eq_ok] at returned
      obtain ⟨middle, allowing, denying⟩ := returned
      have deploying : Deployed.Reachable deployed :=
        .tail (.tail .refl ⟨.ofNat 1, .initAllowlistV1 firstInit⟩)
          ⟨.ofNat 1, .initAllowlistV1_1 secondInit⟩
      have reachable : Deployed.Reachable
          { deployed with state := allowlist } :=
        (deploying.tail ⟨.ofNat 2, .call allowing⟩).tail
          ⟨.ofNat 3, .call denying⟩
      obtain ⟨wellFormed, roles⟩ := roles_separated reachable
      obtain ⟨denials, -, -⟩ := roles version
      refine ⟨_, denied, allowed, wellFormed _ denied, fun later run => ?_⟩
      rw [(denials later run _).1]
      exact denied

end Allowlist

end RiverProtocol
