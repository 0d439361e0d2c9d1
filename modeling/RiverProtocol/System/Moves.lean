import RiverProtocol.OperatorsRegistry.Steps
import RiverProtocol.RedeemManager.Solvency
import RiverProtocol.River.Invariants
import RiverProtocol.System.Model

/-!
# Operations as sequences of moves

Every call outside a report is a sequence of moves, each of which changes one
or two contracts in a known way.  Invariants of the system are proved once for
each move.
-/

namespace RiverProtocol

open Checked Outcome Balances

namespace Deployment

variable {deployment : Deployment} {sender : Address}

theorem External.ne_river (external : deployment.External sender) :
    sender ≠ deployment.river := by
  rintro rfl
  exact external (by simp [contracts])

theorem External.ne_redeemManager (external : deployment.External sender) :
    sender ≠ deployment.redeemManager := by
  rintro rfl
  exact external (by simp [contracts])

theorem External.ne_wlseth (external : deployment.External sender) :
    sender ≠ deployment.wlseth := by
  rintro rfl
  exact external (by simp [contracts])

theorem river_ne_redeemManager :
    deployment.river ≠ deployment.redeemManager := by
  have distinct := deployment.distinct
  simp only [List.nodup_cons, List.mem_cons, not_or] at distinct
  exact distinct.1.1

theorem wlseth_ne_redeemManager :
    deployment.wlseth ≠ deployment.redeemManager := by
  have distinct := deployment.distinct
  simp only [List.nodup_cons, List.mem_cons, not_or] at distinct
  exact Ne.symm distinct.2.1.2.1

theorem wlseth_ne_river : deployment.wlseth ≠ deployment.river := by
  have distinct := deployment.distinct
  simp only [List.nodup_cons, List.mem_cons, not_or] at distinct
  exact Ne.symm distinct.1.2.2.1

theorem river_ne_zero : deployment.river ≠ .zero := by
  intro none
  exact deployment.nonzero (none ▸ List.mem_cons_self)

theorem redeemManager_ne_zero : deployment.redeemManager ≠ .zero := by
  intro none
  exact deployment.nonzero (none ▸ by simp)

end Deployment

namespace WLSETH

variable {wlseth after : WLSETH} {river riverAfter : River}
  {allowlist : Allowlist} {self sender recipient : Address} {value : Nat}

theorem mint_ok
    (returned : wlseth.mint self river allowlist sender recipient value =
      .ok (after, riverAfter)) :
    allowlist.isDenied recipient = false ∧
      river.transferFrom allowlist self sender self value = .ok riverAfter ∧
      after = { wlseth with
        balanceOf := credit wlseth.balanceOf recipient value
        balanceOfLsETH := wlseth.balanceOfLsETH + value } := by
  simp only [mint, River.onTransfer, bind_eq_ok, require_eq_ok, uadd_eq_ok,
    pure_eq_ok, Prod.mk.injEq] at returned
  obtain ⟨-, ⟨-, -, allowed⟩, credited, ⟨-, rfl⟩, moved, moving, held,
    ⟨-, rfl⟩, underlying, -, rfl, rfl⟩ := returned
  exact ⟨allowed, moving, rfl⟩

theorem burn_ok
    (returned : wlseth.burn self river allowlist sender recipient value =
      .ok (after, riverAfter)) :
    allowlist.isDenied sender = false ∧
      river.transfer allowlist self recipient value = .ok riverAfter ∧
      value ≤ wlseth.balanceOf sender ∧
      after = { wlseth with
        balanceOf := debit wlseth.balanceOf sender value
        balanceOfLsETH := wlseth.balanceOfLsETH - value } := by
  simp only [burn, River.onTransfer, bind_eq_ok, require_eq_ok, usub_eq_ok,
    pure_eq_ok, Prod.mk.injEq] at returned
  obtain ⟨-, ⟨-, allowed, -⟩, -, -, debited, ⟨enough, rfl⟩, moved, moving,
    held, ⟨-, rfl⟩, underlying, -, rfl, rfl⟩ := returned
  exact ⟨allowed, moving, enough, rfl⟩

end WLSETH

namespace System

variable {deployment : Deployment} {system after : System}

inductive Move (deployment : Deployment) : System → System → Prop where
  | river {system : System} {river : River} :
      River.Move deployment.redeemManager system.river river →
      Move deployment system { system with river := river }
  | request {system : System} {sender : Address} {amount : Nat}
      {redeemManager : RedeemManager} : sender ≠ deployment.redeemManager →
      amount ≤ system.river.sharesPerOwner sender →
      redeemManager.redeemDemand =
        system.redeemManager.redeemDemand + amount →
      Move deployment system { system with
        river := system.river.moved sender deployment.redeemManager amount
        redeemManager := redeemManager }
  | claim {system : System} {redeemManager : RedeemManager} :
      redeemManager.redeemDemand = system.redeemManager.redeemDemand →
      Move deployment system { system with redeemManager := redeemManager }
  | fund {system : System} {registry : OperatorsRegistry}
      {allocations : List OperatorAllocation}
      {validators : List (Bytes × Bytes)} :
      system.registry.pickNextValidatorsToDeposit allocations =
        .ok (registry, validators) →
      depositSize * validators.length ≤ system.river.committedBalance →
      depositSize * validators.length ≤ system.river.balance →
      Move deployment system { system with
        registry := registry
        river := system.river.funded validators.length }
  | exits {system : System} {registry : OperatorsRegistry}
      {keeper sender : Address} {allocations : List OperatorAllocation} :
      system.registry.requestValidatorExits keeper sender allocations =
        .ok registry →
      Move deployment system { system with registry := registry }
  | manage {system : System} {registry : OperatorsRegistry}
      {call : OperatorsRegistry.Call} {sender : Address}
      {blockNumber : Nat} :
      call.apply system.registry sender blockNumber = .ok registry →
      Move deployment system { system with registry := registry }
  | other {system : System} (wlseth : WLSETH)
      (allowlists : Address → Allowlist) (balance : Nat) :
      Move deployment system { system with
        wlseth := wlseth
        allowlists := allowlists
        withdraw := { system.withdraw with balance := balance } }

abbrev Moves (deployment : Deployment) : System → System → Prop :=
  Relation.ReflTransGen (Move deployment)

theorem moves_of_river {river : River}
    (moves : River.Moves deployment.redeemManager system.river river) :
    Moves deployment system { system with river := river } := by
  induction moves with
  | refl => exact .refl
  | tail _ move induction => exact induction.tail (.river move)

theorem wrap_ok {sender recipient : Address} {shares : Nat}
    (returned : system.wrap deployment sender recipient shares = .ok after) :
    ∃ wlseth river, system.wlseth.mint deployment.wlseth system.river
        system.allowlist sender recipient shares = .ok (wlseth, river) ∧
      after = { system with wlseth := wlseth, river := river } := by
  simp only [wrap, bind_eq_ok, pure_eq_ok, Prod.exists] at returned
  obtain ⟨wlseth, river, minting, rfl⟩ := returned
  exact ⟨wlseth, river, minting, rfl⟩

theorem unwrap_ok {sender recipient : Address} {shares : Nat}
    (returned : system.unwrap deployment sender recipient shares =
      .ok after) :
    ∃ wlseth river, system.wlseth.burn deployment.wlseth system.river
        system.allowlist sender recipient shares = .ok (wlseth, river) ∧
      after = { system with wlseth := wlseth, river := river } := by
  simp only [unwrap, bind_eq_ok, pure_eq_ok, Prod.exists] at returned
  obtain ⟨wlseth, river, burning, rfl⟩ := returned
  exact ⟨wlseth, river, burning, rfl⟩

/-- A request moves the shares of its sender, and the redeem manager stores
it. -/
theorem requestRedeemBy_ok {sender recipient initiator : Address}
    {lsETHAmount id : Nat}
    (returned : system.requestRedeemBy deployment sender lsETHAmount recipient
      initiator = .ok (after, id)) :
    ∃ river redeemManager,
      system.river.transferFrom system.allowlist deployment.redeemManager
        sender deployment.redeemManager lsETHAmount = .ok river ∧
      RedeemManager.requestRedeem
        (riverCalls deployment sender fun _ => false) system.toWorld
        system.redeemManager lsETHAmount recipient initiator =
        .ok (redeemManager, { system.toWorld with river := river }, id) ∧
      after = { system with
        river := river
        redeemManager := redeemManager } := by
  simp only [requestRedeemBy, bind_eq_ok, pure_eq_ok, Prod.mk.injEq,
    Prod.exists] at returned
  obtain ⟨manager, world, number, requested, rfl, rfl⟩ := returned
  have transfer := (RedeemManager.requestRedeem_eq_ok.mp requested).2.2.2.1
  simp only [riverCalls, bind_eq_ok, pure_eq_ok, Prod.mk.injEq, true_and]
    at transfer
  obtain ⟨river, transferred, rfl⟩ := transfer
  exact ⟨river, manager, transferred, requested, rfl⟩

section Paths

variable {sender recipient : Address} {lsETHAmount id : Nat}

theorem requestRedeem_ok
    (returned : system.requestRedeem deployment sender lsETHAmount recipient =
      .ok (after, id)) :
    ∃ river, river = system.river.moved sender deployment.river lsETHAmount ∧
      lsETHAmount ≤ system.river.sharesPerOwner sender ∧
      requestRedeemBy deployment { system with river := river }
        deployment.river lsETHAmount recipient sender = .ok (after, id) := by
  simp only [requestRedeem, bind_eq_ok] at returned
  obtain ⟨-, -, -, -, -, -, river, moving, requested⟩ := returned
  obtain ⟨enough, moved⟩ := River.transferShares_ok moving
  exact ⟨river, moved, enough, requested⟩

theorem requestRedeemFor_ok
    (returned : system.requestRedeemFor deployment sender lsETHAmount
      recipient = .ok (after, id)) :
    system.requestRedeemBy deployment sender lsETHAmount recipient sender =
      .ok (after, id) := by
  simp only [requestRedeemFor, bind_eq_ok] at returned
  obtain ⟨-, -, -, -, -, -, requested⟩ := returned
  exact requested

theorem requestRedeemSelf_ok
    (returned : system.requestRedeemSelf deployment sender lsETHAmount =
      .ok (after, id)) :
    system.requestRedeemBy deployment sender lsETHAmount sender sender =
      .ok (after, id) := by
  simp only [requestRedeemSelf, bind_eq_ok] at returned
  obtain ⟨-, -, -, -, requested⟩ := returned
  exact requested

end Paths

theorem requestRedeemBy_moves {sender recipient initiator : Address}
    {lsETHAmount id : Nat} (free : sender ≠ deployment.redeemManager)
    (returned : system.requestRedeemBy deployment sender lsETHAmount recipient
      initiator = .ok (after, id)) : Moves deployment system after := by
  obtain ⟨river, manager, transferred, requested, rfl⟩ :=
    requestRedeemBy_ok returned
  obtain ⟨-, -, -, -, height, maximum, -, -, -, rfl⟩ :=
    RedeemManager.requestRedeem_eq_ok.mp requested
  obtain ⟨-, -, funds, rfl | rfl⟩ := River.transferFrom_ok transferred
  · exact .single (.request free funds rfl)
  · have approving : Move deployment system { system with
        river := system.river.setApproval sender deployment.redeemManager
          (system.river.approvals sender deployment.redeemManager -
            lsETHAmount) } := .river (.approve free)
    exact (Relation.ReflTransGen.single approving).tail
      (.request free funds rfl)

theorem riverCalls_call {sender recipient : Address}
    {accepts : Address → Bool} {amount : Nat} {world worldAfter : World}
    (answered : (riverCalls deployment sender accepts).call world recipient
      amount = some worldAfter) :
    worldAfter = world ∨ ∃ river,
      world.river.deposit world.allowlist deployment.redeemManager amount =
        .ok river ∧ worldAfter = { world with river := river } := by
  simp only [riverCalls] at answered
  split at answered
  · split at answered
    · rename_i river deposited
      exact .inr ⟨river, deposited, (Option.some.inj answered).symm⟩
    · contradiction
  · split at answered
    · contradiction
    · split at answered
      · exact .inl (Option.some.inj answered).symm
      · contradiction

/-- What each claim of a call keeps, the call keeps. -/
theorem claimRedeemRequests_induction {motive : System → Prop}
    {sender : Address} {accepts : Address → Bool}
    {redeemRequestIds withdrawalEventIds : List Nat}
    {skipAlreadyClaimed : Bool} {depth : Nat} {statuses : List ClaimStatus}
    (one : ∀ (call : RedeemManager.ClaimCall) (before : System)
      (world : World) (manager : RedeemManager) (requestId eventId : Nat),
      motive before →
      RedeemManager.ClaimRun (riverCalls deployment sender accepts) call
        before.toWorld before.redeemManager requestId eventId world manager →
      motive { toWorld := world, redeemManager := manager })
    (holds : motive system)
    (returned : system.claimRedeemRequests deployment sender accepts
      redeemRequestIds withdrawalEventIds skipAlreadyClaimed depth =
        .ok (after, statuses)) : motive after := by
  simp only [claimRedeemRequests, RedeemManager.claimRedeemRequests,
    bind_eq_ok, pure_eq_ok, Prod.mk.injEq, Prod.exists] at returned
  obtain ⟨manager, world, answers, ⟨-, -, loop⟩, rfl, -⟩ := returned
  refine RedeemManager.claimAll_induction
    (motive := fun world manager =>
      motive { toWorld := world, redeemManager := manager }) ?_ holds loop
  intro world manager worldAfter after requestId eventId holds run
  exact one _ { toWorld := world, redeemManager := manager } _ _ _ _ holds run

theorem claimRedeemRequests_moves {sender : Address}
    {accepts : Address → Bool} {redeemRequestIds withdrawalEventIds : List Nat}
    {skipAlreadyClaimed : Bool} {depth : Nat} {statuses : List ClaimStatus}
    (returned : system.claimRedeemRequests deployment sender accepts
      redeemRequestIds withdrawalEventIds skipAlreadyClaimed depth =
        .ok (after, statuses)) : Moves deployment system after := by
  refine claimRedeemRequests_induction ?_ .refl returned
  intro call before world manager requestId eventId moves run
  obtain ⟨-, -, -, -, -, demand, -⟩ := run.moves_start
  have claimed : Move deployment before
      { before with redeemManager := manager } := .claim demand
  cases riverCalls_call run.paid with
  | inl same =>
      rw [same]
      exact moves.tail claimed
  | inr deposited =>
      obtain ⟨river, deposited, rfl⟩ := deposited
      exact (moves.tail claimed).trans
        (moves_of_river (River.depositFor_moves (.inr rfl) deposited))

theorem depositValidators_ok {contract : DepositContract}
    {validators : List (Bytes × Bytes)} {river funded : River}
    (returned : depositValidators contract validators river = .ok funded) :
    depositSize * validators.length ≤ river.balance ∧
      funded = { river with
        balance := river.balance - depositSize * validators.length } := by
  induction validators generalizing river with
  | nil =>
      simp only [depositValidators, pure_eq_ok] at returned
      subst returned
      exact ⟨Nat.zero_le _, rfl⟩
  | cons validator rest induction =>
      simp only [depositValidators, depositValidator, bind_eq_ok, usub_eq_ok,
        pure_eq_ok] at returned
      obtain ⟨next, ⟨-, -, -, -, target, ⟨enough, rfl⟩, -, -, -, -, rfl⟩,
        following⟩ := returned
      obtain ⟨held, rfl⟩ := induction following
      dsimp only at held
      rw [List.length_cons, Nat.mul_succ]
      refine ⟨by omega, ?_⟩
      rw [Nat.sub_sub, Nat.add_comm depositSize]

theorem depositToConsensusLayer_moves {contract : DepositContract}
    {sender : Address} {allocations : List OperatorAllocation}
    {depositRoot : Nat}
    (returned : system.depositToConsensusLayer deployment contract sender
      allocations depositRoot = .ok after) :
    ∃ registry validators,
      system.registry.pickNextValidatorsToDeposit allocations =
        .ok (registry, validators) ∧
      depositSize * validators.length ≤ system.river.committedBalance ∧
      depositSize * validators.length ≤ system.river.balance ∧
      after = { system with
        registry := registry
        river := system.river.funded validators.length } := by
  simp only [depositToConsensusLayer, bind_eq_ok, umul_eq_ok, usub_eq_ok,
    uadd_eq_ok, pure_eq_ok, Prod.exists] at returned
  obtain ⟨-, -, -, -, -, -, limit, -, -, -, requested, -, -, -, registry,
    validators, picked, -, -, -, -, -, -, funded, deposited, product,
    ⟨-, rfl⟩, committed, ⟨enough, rfl⟩, count, ⟨-, rfl⟩, rfl⟩ := returned
  obtain ⟨held, rfl⟩ := depositValidators_ok deposited
  exact ⟨registry, validators, picked, enough, held, rfl⟩

/-- While the redeem manager has given no approvals, an operation is a
sequence of moves. -/
theorem Operation.moves (operation : Operation deployment system after)
    (locks : ∀ spender,
      system.river.approvals deployment.redeemManager spender = 0) :
    Moves deployment system after := by
  cases operation with
  | river external returned =>
      exact moves_of_river
        (River.Call.apply_moves external.ne_redeemManager locks returned)
  | requestRedeem external returned =>
      obtain ⟨_, rfl, enough, requested⟩ := requestRedeem_ok returned
      exact .head (.river (.moved external.ne_redeemManager enough))
        (requestRedeemBy_moves Deployment.river_ne_redeemManager requested)
  | requestRedeemFor external returned =>
      exact requestRedeemBy_moves external.ne_redeemManager
        (requestRedeemFor_ok returned)
  | requestRedeemSelf external returned =>
      exact requestRedeemBy_moves external.ne_redeemManager
        (requestRedeemSelf_ok returned)
  | claimRedeemRequests external returned =>
      exact claimRedeemRequests_moves returned
  | wrap external returned =>
      obtain ⟨wlseth, river, minting, rfl⟩ := wrap_ok returned
      obtain ⟨-, transferred, rfl⟩ := WLSETH.mint_ok minting
      exact (moves_of_river (River.transferFrom_moves external.ne_redeemManager
        transferred)).tail (.other _ _ _)
  | unwrap external returned =>
      obtain ⟨wlseth, river, burning, rfl⟩ := unwrap_ok returned
      obtain ⟨-, transferred, -, rfl⟩ := WLSETH.burn_ok burning
      obtain ⟨enough, rfl⟩ := River.transfer_ok transferred
      exact .head (.river (.moved Deployment.wlseth_ne_redeemManager enough))
        (.single (.other _ _ _))
  | wrapper external returned => exact .single (.other _ _ _)
  | depositToConsensusLayer external returned =>
      obtain ⟨registry, validators, picked, enough, held, rfl⟩ :=
        depositToConsensusLayer_moves returned
      exact .single (.fund picked enough held)
  | requestValidatorExits external returned =>
      exact .single (.exits returned)
  | registry external returned => exact .single (.manage returned)
  | allowlist external returned => exact .single (.other _ _ _)
  | consensusLayerWithdrawal amount => exact .single (.other _ _ _)

end System

end RiverProtocol
