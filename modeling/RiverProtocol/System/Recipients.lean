import RiverProtocol.System.Reentrancy

/-!
# Claims under the code of their recipients

A claim as a function of what its recipients do when they are paid.  Their
code has a storage of its own and acts on the protocol through its calls.
Recipients that call nobody back give the claims of the system.
-/

namespace RiverProtocol

open Checked Outcome

namespace System

/-- The code that answers payments, over a storage outside the protocol: the
storage and the system it leaves, or none where it reverts.  On the protocol it
makes these steps only. -/
structure Recipients (Storage : Type) (step : System → System → Prop) where
  receive : Storage → System → Address → Nat → Option (Storage × System)
  steps : ∀ {storage storageAfter : Storage} {system after : System}
    {recipient : Address} {amount : Nat},
    receive storage system recipient amount = some (storageAfter, after) →
    Relation.ReflTransGen step system after

section Calls

variable {Storage : Type} {step : System → System → Prop}
  (deployment : Deployment) (recipients : Recipients Storage step)

/-- The payment of a claim: River deposits it, the other contracts refuse it,
and anyone else runs its own code. -/
def pay (storage : Storage) (system : System) (recipient : Address)
    (amount : Nat) : Option (Storage × System) :=
  if recipient = deployment.river then
    match system.river.deposit system.allowlist deployment.redeemManager
      amount with
    | .ok river => some (storage, { system with river := river })
    | .error _ => none
  else if recipient ∈ deployment.contracts then none
  else recipients.receive storage system recipient amount

/-- One iteration of the loop of `_claimRedeemRequests`. -/
def claimPair (call : RedeemManager.ClaimCall) (allowlist : Address)
    (storage : Storage) (system : System)
    (redeemRequestId withdrawalEventId : Nat) :
    Except Error (Storage × System × ClaimStatus) := do
  let (begun, paying) ← system.beginClaim call allowlist redeemRequestId
    withdrawalEventId
  match paying with
  | none => return (storage, begun, .skipped)
  | some params =>
    match pay deployment recipients storage begun
      params.redeemRequest.recipient params.ethAmount with
    | none =>
      .error (.claimRedeemFailed params.redeemRequest.recipient .reverted)
    | some (storage, returned) =>
      return (storage, returned.endClaim params,
        if params.redeemRequest.amount = 0 then .fullyClaimed
        else .partiallyClaimed)

/-- The loop of `_claimRedeemRequests` over its two id arrays. -/
def claimPairs (call : RedeemManager.ClaimCall) (allowlist : Address) :
    List (Nat × Nat) → Storage → System →
      Except Error (Storage × System × List ClaimStatus)
  | [], storage, system => return (storage, system, [])
  | (redeemRequestId, withdrawalEventId) :: rest, storage, system => do
    let (storage, system, status) ← claimPair deployment recipients call
      allowlist storage system redeemRequestId withdrawalEventId
    let (storage, system, statuses) ← claimPairs call allowlist rest storage
      system
    return (storage, system, status :: statuses)

/-- `claimRedeemRequests` of the redeem manager, whose payments run the code
of their recipients. -/
def claimCalling (storage : Storage) (system : System)
    (redeemRequestIds withdrawalEventIds : List Nat)
    (skipAlreadyClaimed : Bool) (depth : Nat) :
    Except Error (Storage × System × List ClaimStatus) := do
  require (redeemRequestIds.length = withdrawalEventIds.length)
    .incompatibleArrayLengths
  claimPairs deployment recipients
    (system.claimCall skipAlreadyClaimed depth)
    system.river.config.allowlist
    (redeemRequestIds.zip withdrawalEventIds) storage system

end Calls

section Payments

variable {Storage : Type} {step : System → System → Prop}
  {deployment : Deployment} {recipients : Recipients Storage step}
  {storage storageAfter : Storage} {system after : System}

theorem pay_ok {recipient : Address} {amount : Nat}
    (paid : pay deployment recipients storage system recipient amount =
      some (storageAfter, after)) :
    (∃ river, system.river.deposit system.allowlist deployment.redeemManager
        amount = .ok river ∧ after = { system with river := river }) ∨
      Relation.ReflTransGen step system after := by
  unfold pay at paid
  split at paid
  · split at paid
    · rename_i river deposited
      obtain ⟨-, rfl⟩ := Prod.mk.inj (Option.some.inj paid)
      exact .inl ⟨river, deposited, rfl⟩
    · cases paid
  · split at paid
    · cases paid
    · exact .inr (recipients.steps paid)

section Induction

variable {motive : System → Prop} (deployment)

/-- What claims keep: the writes of the redeem manager, deposits of paid ether
and the steps of recipients. -/
structure Kept (step : System → System → Prop) (motive : System → Prop) :
    Prop where
  managed : ∀ (system : System) (manager : RedeemManager), motive system →
    system.redeemManager.Grows manager →
    manager.redeemQueue.length = system.redeemManager.redeemQueue.length →
    motive { system with redeemManager := manager }
  deposited : ∀ (system : System) (river : River) (amount : Nat),
    motive system →
    system.river.deposit system.allowlist deployment.redeemManager amount =
      .ok river → motive { system with river := river }
  stepped : ∀ system after, motive system → step system after → motive after

variable {deployment} (kept : Kept deployment step motive)

include kept

theorem Kept.pay {recipient : Address} {amount : Nat} (holds : motive system)
    (paid : pay deployment recipients storage system recipient amount =
      some (storageAfter, after)) : motive after := by
  rcases pay_ok paid with ⟨river, deposited, rfl⟩ | run
  · exact kept.deposited _ river _ holds deposited
  · clear paid
    induction run with
    | refl => exact holds
    | tail _ step induction => exact kept.stepped _ _ induction step

theorem Kept.claimPair {call : RedeemManager.ClaimCall} {allowlist : Address}
    {redeemRequestId withdrawalEventId : Nat} {status : ClaimStatus}
    (holds : motive system)
    (returned : claimPair deployment recipients call allowlist storage system
      redeemRequestId withdrawalEventId =
        .ok (storageAfter, after, status)) : motive after := by
  simp only [System.claimPair, bind_eq_ok, Prod.exists] at returned
  obtain ⟨begun, paying, begins, returned⟩ := returned
  cases paying with
  | none =>
      obtain rfl := beginClaim_skipped begins
      obtain ⟨-, same⟩ := Prod.mk.inj (pure_eq_ok.mp returned)
      obtain ⟨rfl, -⟩ := Prod.mk.inj same
      exact holds
  | some params =>
      obtain ⟨begun⟩ := beginClaim_begun begins
      have entered := begun.grows
      have length := begun.length
      rw [begun.paid_eq] at returned entered length
      have started := kept.managed system _ holds entered length
      dsimp only at returned
      split at returned
      · cases returned
      · rename_i paidStorage back paid
        obtain ⟨-, same⟩ := Prod.mk.inj (pure_eq_ok.mp returned)
        obtain ⟨rfl, -⟩ := Prod.mk.inj same
        exact kept.managed back _ (kept.pay started paid)
          (endClaim_grows params) rfl

theorem Kept.claimPairs {call : RedeemManager.ClaimCall} {allowlist : Address}
    {pairs : List (Nat × Nat)} {statuses : List ClaimStatus}
    (holds : motive system)
    (returned : claimPairs deployment recipients call allowlist pairs storage
      system = .ok (storageAfter, after, statuses)) : motive after := by
  induction pairs generalizing storage system statuses with
  | nil =>
      obtain ⟨-, same⟩ := Prod.mk.inj (pure_eq_ok.mp returned)
      obtain ⟨rfl, -⟩ := Prod.mk.inj same
      exact holds
  | cons pair rest induction =>
      simp only [System.claimPairs, bind_eq_ok, pure_eq_ok, Prod.mk.injEq,
        Prod.exists] at returned
      obtain ⟨_, next, _, claimed, _, _, _, later, rfl, rfl, -⟩ := returned
      exact induction (kept.claimPair holds claimed) later

theorem Kept.claimCalling {redeemRequestIds withdrawalEventIds : List Nat}
    {skipAlreadyClaimed : Bool} {depth : Nat} {statuses : List ClaimStatus}
    (holds : motive system)
    (returned : claimCalling deployment recipients storage system
      redeemRequestIds withdrawalEventIds skipAlreadyClaimed depth =
        .ok (storageAfter, after, statuses)) : motive after := by
  simp only [System.claimCalling, bind_eq_ok] at returned
  obtain ⟨-, -, loop⟩ := returned
  exact kept.claimPairs holds loop

end Induction

theorem kept_grows {start : System} : Kept deployment (Step deployment)
    fun next => start.redeemManager.Grows next.redeemManager where
  managed _ _ grows writes _ := grows.trans writes
  deposited _ _ _ grows _ := grows
  stepped _ _ grows step := grows.trans step.grows

theorem claimPair_grows {recipients : Recipients Storage (Step deployment)}
    {call : RedeemManager.ClaimCall} {allowlist : Address}
    {redeemRequestId withdrawalEventId : Nat} {status : ClaimStatus}
    (returned : claimPair deployment recipients call allowlist storage system
      redeemRequestId withdrawalEventId = .ok (storageAfter, after, status)) :
    system.redeemManager.Grows after.redeemManager :=
  kept_grows.claimPair .refl returned

end Payments

section Silent

variable {step : System → System → Prop} {deployment : Deployment}
  {system : System} {sender : Address}

/-- Recipients that accept or refuse, and call nobody back. -/
def Recipients.silent (step : System → System → Prop)
    (accepts : Address → Bool) : Recipients Unit step where
  receive _ system recipient _ :=
    if accepts recipient then some ((), system) else none
  steps := by
    intro _ _ system after recipient amount received
    split at received
    · obtain ⟨-, rfl⟩ := Prod.mk.inj (Option.some.inj received)
      exact .refl
    · cases received

variable {accepts : Address → Bool}

theorem pay_silent (sender : Address) {recipient : Address} {amount : Nat} :
    pay deployment (Recipients.silent step accepts) () system
        recipient amount =
      ((riverCalls deployment sender accepts).call system.toWorld recipient
        amount).map fun world => ((), { system with toWorld := world }) := by
  simp only [pay, riverCalls, Recipients.silent]
  split
  · cases system.river.deposit system.allowlist deployment.redeemManager
      amount <;> rfl
  · split
    · rfl
    · split <;> rfl

theorem claimPair_silent (sender : Address) {call : RedeemManager.ClaimCall}
    {redeemRequestId withdrawalEventId : Nat} :
    claimPair deployment (Recipients.silent step accepts) call
        system.river.config.allowlist () system redeemRequestId
        withdrawalEventId =
      (RedeemManager.claimOne (riverCalls deployment sender accepts) call
        system.toWorld system.redeemManager redeemRequestId
        withdrawalEventId).map fun result =>
          ((), { toWorld := result.2.1, redeemManager := result.1 },
            result.2.2) := by
  simp only [claimPair, beginClaim, RedeemManager.claimOne, map_bind,
    bind_assoc]
  refine bind_congr_of_ok fun _ _ => ?_
  refine bind_congr_of_ok fun _ _ => ?_
  refine bind_congr_of_ok fun request _ => ?_
  refine bind_congr_of_ok fun _ _ => ?_
  refine bind_congr_of_ok fun _ _ => ?_
  split
  · simp only [map_bind, bind_assoc]
    rfl
  · simp only [RedeemManager.claimLoadedRequest, RedeemManager.payRecipient,
      map_bind, bind_assoc]
    refine bind_congr_of_ok fun event _ => ?_
    refine bind_congr_of_ok fun _ _ => ?_
    refine bind_congr_of_ok fun _ _ => ?_
    refine bind_congr_of_ok fun result claimed => ?_
    obtain ⟨saved, params⟩ := result
    refine bind_congr_of_ok fun _ _ => ?_
    obtain ⟨-, -, idEq, -⟩ := RedeemManager.claimRedeemRequest_frame claimed
    simp only [pure_bind]
    rw [pay_silent sender]
    cases (riverCalls deployment sender accepts).call system.toWorld
        params.redeemRequest.recipient params.ethAmount with
    | none => rfl
    | some world =>
        simp only [endClaim, Option.map_some, idEq]
        rfl

theorem claimOne_pointer {call : RedeemManager.ClaimCall} {world : World}
    {manager : RedeemManager} {redeemRequestId withdrawalEventId : Nat}
    {status : ClaimStatus}
    (returned : RedeemManager.claimOne (riverCalls deployment sender accepts)
      call system.toWorld system.redeemManager redeemRequestId
      withdrawalEventId = .ok (manager, world, status)) :
    world.river.config.allowlist = system.river.config.allowlist := by
  rcases RedeemManager.claimOne_ok returned with ⟨-, rfl, -⟩ | ⟨⟨run⟩⟩
  · rfl
  · rcases riverCalls_call run.paid with rfl | ⟨river, deposited, rfl⟩
    · rfl
    · obtain ⟨-, -, minted⟩ := River.depositFor_ok deposited
      exact congrArg (·.config.allowlist) minted

theorem claimPairs_silent (sender : Address) {call : RedeemManager.ClaimCall}
    {allowlist : Address} (pairs : List (Nat × Nat))
    (pointer : system.river.config.allowlist = allowlist) :
    claimPairs deployment (Recipients.silent step accepts) call
        allowlist pairs () system =
      (RedeemManager.claimAll (riverCalls deployment sender accepts) call
        pairs system.toWorld system.redeemManager).map
        fun result =>
          ((), { toWorld := result.2.1, redeemManager := result.1 },
            result.2.2) := by
  induction pairs generalizing system with
  | nil => rfl
  | cons pair rest induction =>
      subst pointer
      simp only [claimPairs, RedeemManager.claimAll, map_bind]
      rw [claimPair_silent sender]
      cases claiming : RedeemManager.claimOne
          (riverCalls deployment sender accepts) call system.toWorld
          system.redeemManager pair.1 pair.2 with
      | error failure => rfl
      | ok result =>
          obtain ⟨manager, world, status⟩ := result
          have later := @induction
            { toWorld := world, redeemManager := manager }
            (claimOne_pointer claiming)
          simp only [Except.map, ok_bind]
          rw [later]
          cases RedeemManager.claimAll (riverCalls deployment sender accepts)
            call rest world manager <;> rfl

/-- Under recipients that call nobody back a claim is that of the system. -/
theorem claimCalling_silent (sender : Address)
    (redeemRequestIds withdrawalEventIds : List Nat)
    (skipAlreadyClaimed : Bool) (depth : Nat) :
    claimCalling deployment (Recipients.silent step accepts) ()
        system redeemRequestIds withdrawalEventIds skipAlreadyClaimed depth =
      (system.claimRedeemRequests deployment sender accepts redeemRequestIds
        withdrawalEventIds skipAlreadyClaimed depth).map
        fun result => ((), result) := by
  simp only [claimCalling, claimRedeemRequests,
    RedeemManager.claimRedeemRequests, map_bind, bind_assoc]
  refine bind_congr_of_ok fun _ _ => ?_
  rw [claimPairs_silent sender _ rfl]
  simp only [claimCall]
  cases RedeemManager.claimAll (riverCalls deployment sender accepts) _
    (redeemRequestIds.zip withdrawalEventIds) system.toWorld
    system.redeemManager <;> rfl

end Silent

end System

end RiverProtocol
