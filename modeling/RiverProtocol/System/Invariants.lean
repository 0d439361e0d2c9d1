import RiverProtocol.System.Report

/-!
# Invariants of the system

What holds in every state a fresh deployment reaches, over calls and reports
in any order.
-/

namespace RiverProtocol

open Checked Outcome Balances

namespace River

variable {locked : Address} {river after : River}

theorem Move.locked_le (move : Move locked river after) :
    river.sharesPerOwner locked ≤ after.sharesPerOwner locked := by
  cases move with
  | mint owner value => exact le_credit
  | moved free enough => exact le_move (Ne.symm free)
  | approve free => exact Nat.le_refl _
  | configure config => exact Nat.le_refl _

theorem Move.frame (move : Move locked river after) :
    after.lastConsensusLayerReport = river.lastConsensusLayerReport ∧
      after.depositedValidatorCount = river.depositedValidatorCount ∧
      after.committedBalance = river.committedBalance ∧
      after.balanceToRedeem = river.balanceToRedeem := by
  cases move <;> exact ⟨rfl, rfl, rfl, rfl⟩

end River

namespace System

theorem Move.balanceToRedeem {deployment : Deployment}
    {system after : System} (move : Move deployment system after) :
    after.river.balanceToRedeem = system.river.balanceToRedeem := by
  cases move with
  | river move => exact move.frame.2.2.2
  | _ => rfl

/-- The books of the contracts agree with each other. -/
structure Sound (deployment : Deployment) (system : System) : Prop where
  river : system.river.Sound deployment.redeemManager
  redeem_backed : system.redeemManager.redeemDemand ≤
    system.river.sharesPerOwner deployment.redeemManager
  pulled : system.withdraw.pulled =
    system.river.lastConsensusLayerReport.validatorsSkimmedBalance +
      system.river.lastConsensusLayerReport.validatorsExitedBalance
  registry : system.registry.Accounted system.river.depositedValidatorCount

namespace Sound

variable {deployment : Deployment} {system after : System}

theorem fresh (deployment : Deployment) :
    Sound deployment (System.fresh deployment) where
  river :=
    { shares_total := by
        simp [System.fresh, River.totalShares, total]
      no_approval := by
        intro spender
        simp only [System.fresh]
        rw [Function.update_of_ne Deployment.river_ne_redeemManager.symm]
      ledger := rfl
      deposits := Nat.dvd_zero _
      counted := Nat.le_refl _ }
  redeem_backed := Nat.le_refl _
  pulled := rfl
  registry := OperatorsRegistry.accounted_fresh deployment.registryAdmin

theorem of_move (sound : Sound deployment system)
    (move : Move deployment system after) : Sound deployment after := by
  cases move with
  | river move =>
      obtain ⟨report, deposited, -, -⟩ := move.frame
      refine ⟨sound.river.of_move move,
        sound.redeem_backed.trans move.locked_le, ?_, ?_⟩
      · dsimp only
        rw [report]
        exact sound.pulled
      · dsimp only
        rw [deposited]
        exact sound.registry
  | request free enough demand =>
      refine ⟨sound.river.moved enough, ?_, sound.pulled, sound.registry⟩
      simp only [River.moved]
      rw [demand, move_recipient (Ne.symm free)]
      exact Nat.add_le_add_right sound.redeem_backed _
  | claim demand =>
      refine ⟨sound.river, ?_, sound.pulled, sound.registry⟩
      dsimp only
      rw [demand]
      exact sound.redeem_backed
  | fund picked enough held =>
      exact ⟨sound.river.funded enough, sound.redeem_backed, sound.pulled,
        OperatorsRegistry.pickNextValidatorsToDeposit_ok sound.registry
          picked⟩
  | exits returned =>
      exact ⟨sound.river, sound.redeem_backed, sound.pulled,
        OperatorsRegistry.requestValidatorExits_ok sound.registry returned⟩
  | manage returned =>
      exact ⟨sound.river, sound.redeem_backed, sound.pulled,
        sound.registry.of_call returned⟩
  | other wlseth allowlists balance =>
      exact ⟨sound.river, sound.redeem_backed, sound.pulled, sound.registry⟩

theorem of_moves (sound : Sound deployment system)
    (moves : Moves deployment system after) : Sound deployment after := by
  induction moves with
  | refl => exact sound
  | tail _ move induction => exact induction.of_move move

theorem of_operation (sound : Sound deployment system)
    (operation : Operation deployment system after) :
    Sound deployment after :=
  sound.of_moves (operation.moves sound.river.no_approval)

theorem applied {increase : River.ReportIncrease}
    {report : ConsensusLayerReport} {sender : Address} {timestamp : Nat}
    (sound : Sound deployment system)
    (checked : River.Checked system.river sender timestamp report increase) :
    Sound deployment (system.applied increase report) := by
  refine ⟨sound.river.reported checked.deposited, sound.redeem_backed, ?_,
    sound.registry⟩
  have pulled := sound.pulled
  have exited := checked.exited
  have skimmed := checked.skimmed
  simp only [System.applied, River.reported]
  omega

theorem collected {redeemManager : RedeemManager}
    (sound : Sound deployment system) (amount : Nat)
    (demand : redeemManager.redeemDemand =
      system.redeemManager.redeemDemand) :
    Sound deployment (system.collected redeemManager amount) := by
  refine ⟨sound.river.received amount, ?_, sound.pulled, sound.registry⟩
  simp only [System.collected]
  rw [demand]
  exact sound.redeem_backed

theorem minted (sound : Sound deployment system) (owner : Address)
    (value : Nat) :
    Sound deployment { system with
      river := system.river.minted owner value } :=
  ⟨sound.river.minted _ _, sound.redeem_backed.trans le_credit, sound.pulled,
    sound.registry⟩

theorem rewarded (sound : Sound deployment system) (rewards : Nat) :
    Sound deployment (system.rewarded rewards) :=
  sound.minted _ _

theorem requested {registry : OperatorsRegistry} {rebalancing : Nat}
    (sound : Sound deployment system)
    (accounted : registry.Accounted system.river.depositedValidatorCount)
    (held : rebalancing ≤ system.river.balanceToDeposit) :
    Sound deployment (system.requested registry rebalancing) :=
  ⟨sound.river.rebalanced held, sound.redeem_backed, sound.pulled, accounted⟩

theorem withdrawn {amount eth : Nat} (sound : Sound deployment system)
    (withdrawal : Withdrawal deployment system amount eth after) :
    Sound deployment after := by
  obtain ⟨bounded, -, height, -, manager⟩ :=
    RedeemManager.reportWithdraw_ok withdrawal.reported
  rw [withdrawal.after_eq, manager]
  refine ⟨sound.river.withdrawn withdrawal.eth_le withdrawal.owned, ?_,
    sound.pulled, sound.registry⟩
  have backed := sound.redeem_backed
  simp only [River.withdrawn, debit_self]
  omega

theorem withdrawing (sound : Sound deployment system)
    (returned : system.reportWithdrawToRedeemManager deployment =
      .ok after) : Sound deployment after := by
  rcases reportWithdrawToRedeemManager_ok returned with
    ⟨rfl, -⟩ | ⟨amount, eth, withdrawal⟩
  · exact sound
  · exact sound.withdrawn withdrawal

theorem settled {deposits : Nat} (sound : Sound deployment system)
    (held : depositSize * deposits ≤
      system.river.skimmed.balanceToDeposit) :
    Sound deployment (system.settled deposits) :=
  ⟨sound.river.skimmed.committed held, sound.redeem_backed, sound.pulled,
    sound.registry⟩

section Report

variable {funds : ExternalFunds} {timestamp : Nat} {sender : Address}
  {report : ConsensusLayerReport} {increase : River.ReportIncrease}
  {trace : ReportingTrace} {prepared : System}

theorem of_preparation (sound : Sound deployment system)
    (stages : Preparation funds timestamp sender report system prepared
      increase trace) : Sound deployment prepared := by
  obtain ⟨-, -, manager⟩ :=
    RedeemManager.pullExceedingEth_ok stages.pulls.exceeding
  have demand : stages.redeemManager.redeemDemand =
      (system.applied increase report).redeemManager.redeemDemand := by
    rw [manager]
  have checked := River.checkReport_ok stages.checking
  have collected := (sound.applied checked).collected trace.collected demand
  rw [stages.prepared_eq]
  exact (collected.rewarded trace.rewards).requested stages.accounted
    stages.rebalanced

theorem prepare (sound : Sound deployment system)
    (returned : system.prepareReport funds timestamp sender report =
      .ok (prepared, increase, trace)) : Sound deployment prepared := by
  obtain ⟨stages⟩ := prepareReport_ok sound.registry returned
  exact sound.of_preparation stages

theorem finish {timeElapsed : Nat} {contained : Bool}
    (sound : Sound deployment system)
    (returned : system.finishReport deployment timeElapsed contained =
      .ok after) : Sound deployment after := by
  obtain ⟨withdrawn, deposits, withdrawing, held, rfl⟩ :=
    finishReport_ok returned
  exact (sound.withdrawing withdrawing).settled held

theorem of_report (sound : Sound deployment system)
    (returned : system.setConsensusLayerData deployment funds timestamp
      sender report = .ok (after, trace)) : Sound deployment after := by
  obtain ⟨prepared, increase, preparing, finishing⟩ :=
    setConsensusLayerData_ok returned
  exact (sound.prepare preparing).finish finishing

end Report

theorem of_step (sound : Sound deployment system)
    (step : Step deployment system after) : Sound deployment after := by
  cases step with
  | operation operation => exact sound.of_operation operation
  | report returned => exact sound.of_report returned

theorem of_reachable (reachable : Reachable deployment system) :
    Sound deployment system := by
  induction reachable with
  | refl => exact fresh deployment
  | tail _ step induction => exact induction.of_step step

end Sound

/-- Outside a report nothing is set aside for redeeming. -/
theorem redeemed_of_reachable {deployment : Deployment} {system : System}
    (reachable : Reachable deployment system) :
    system.river.balanceToRedeem = 0 := by
  induction reachable with
  | refl => rfl
  | tail run step induction =>
      have sound := Sound.of_reachable run
      cases step with
      | operation operation =>
          have moves := operation.moves sound.river.no_approval
          clear operation
          induction moves with
          | refl => exact induction
          | tail _ move redeemed =>
              rw [move.balanceToRedeem]
              exact redeemed
      | report returned =>
          obtain ⟨prepared, increase, -, finishing⟩ :=
            setConsensusLayerData_ok returned
          obtain ⟨withdrawn, deposits, -, -, rfl⟩ := finishReport_ok finishing
          rfl

section RedeemManager

variable {deployment : Deployment} {system after : System}

theorem requestRedeemBy_step {sender recipient initiator : Address}
    {lsETHAmount id : Nat}
    (returned : system.requestRedeemBy deployment sender lsETHAmount recipient
      initiator = .ok (after, id)) :
    RedeemManager.Step system.redeemManager after.redeemManager := by
  obtain ⟨river, manager, -, requested, rfl⟩ := requestRedeemBy_ok returned
  exact .requestRedeem requested

/-- How an operation uses the redeem manager: not at all, for a request made
from a sound River, or for a claim. -/
inductive RedeemUse (deployment : Deployment) (system after : System) :
    Prop where
  | unused : after.redeemManager = system.redeemManager →
      RedeemUse deployment system after
  | request {held : System} {sender recipient initiator : Address}
      {lsETHAmount id : Nat} : held.river.Sound deployment.redeemManager →
      held.redeemManager = system.redeemManager →
      held.requestRedeemBy deployment sender lsETHAmount recipient initiator =
        .ok (after, id) → RedeemUse deployment system after
  | claim {river : RiverCalls World} {world : World}
      {redeemRequestIds withdrawalEventIds : List Nat}
      {skipAlreadyClaimed : Bool} {depth : Nat}
      {statuses : List ClaimStatus} :
      RedeemManager.claimRedeemRequests river system.toWorld
        system.redeemManager redeemRequestIds withdrawalEventIds
        skipAlreadyClaimed depth = .ok (after.redeemManager, world, statuses) →
      RedeemUse deployment system after

theorem Operation.redeemUse (sound : Sound deployment system)
    (operation : Operation deployment system after) :
    RedeemUse deployment system after := by
  cases operation with
  | requestRedeem external returned =>
      obtain ⟨_, rfl, enough, requested⟩ := requestRedeem_ok returned
      refine .request ?_ ?_ requested
      · exact sound.river.moved enough
      · rfl
  | requestRedeemFor external returned =>
      exact .request sound.river rfl (requestRedeemFor_ok returned)
  | requestRedeemSelf external returned =>
      exact .request sound.river rfl (requestRedeemSelf_ok returned)
  | claimRedeemRequests external returned =>
      simp only [System.claimRedeemRequests, bind_eq_ok, pure_eq_ok,
        Prod.mk.injEq, Prod.exists] at returned
      obtain ⟨manager, world, answers, claimed, rfl, -⟩ := returned
      exact .claim claimed
  | wrap external returned =>
      obtain ⟨wlseth, river, -, rfl⟩ := wrap_ok returned
      exact .unused rfl
  | unwrap external returned =>
      obtain ⟨wlseth, river, -, rfl⟩ := unwrap_ok returned
      exact .unused rfl
  | depositToConsensusLayer external returned =>
      obtain ⟨registry, validators, -, -, -, rfl⟩ :=
        depositToConsensusLayer_moves returned
      exact .unused rfl
  | _ => exact .unused rfl

theorem Operation.redeemManager (sound : Sound deployment system)
    (operation : Operation deployment system after) :
    Relation.ReflTransGen RedeemManager.Step system.redeemManager
      after.redeemManager := by
  cases operation.redeemUse sound with
  | unused same =>
      rw [same]
  | request held same requested =>
      rw [← same]
      exact .single (requestRedeemBy_step requested)
  | claim claimed => exact .single (.claimRedeemRequests claimed)

/-- A report pulls from the buffer, then serves the demand. -/
theorem report_redeemManager {funds : ExternalFunds} {timestamp : Nat}
    {sender : Address} {report : ConsensusLayerReport}
    {trace : ReportingTrace} (sound : Sound deployment system)
    (returned : system.setConsensusLayerData deployment funds timestamp
      sender report = .ok (after, trace)) :
    Relation.ReflTransGen RedeemManager.Step system.redeemManager
      after.redeemManager := by
  obtain ⟨run⟩ := setConsensusLayerData_run sound.registry returned
  obtain ⟨max, pulling⟩ := run.pulled
  have pulled := RedeemManager.Step.pullExceedingEth pulling
  rw [run.after_eq]
  rcases reportWithdrawToRedeemManager_ok run.withdrawing with
    ⟨same, -⟩ | ⟨amount, eth, withdrawal⟩
  · rw [same]
    exact .single pulled
  · exact (Relation.ReflTransGen.single pulled).tail
      (.reportWithdraw withdrawal.reported)

theorem redeemManager_reachable (reachable : Reachable deployment system) :
    RedeemManager.Reachable system.redeemManager := by
  induction reachable with
  | refl => exact .refl
  | tail run step induction =>
      have sound := Sound.of_reachable run
      refine induction.trans ?_
      cases step with
      | operation operation => exact operation.redeemManager sound
      | report returned => exact report_redeemManager sound returned

end RedeemManager

end System

end RiverProtocol
