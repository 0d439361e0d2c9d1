import RiverProtocol.System.Invariants
import RiverProtocol.Wlseth.Transfers

/-!
# Standing approvals and the LsETH of the wrapper

The supply of LsETH is a word.  River's own approval of the redeem manager is
never consumed, the wrapper gives no approvals, and the wrapper holds at least
the LsETH it counts.
-/

namespace RiverProtocol

open Checked Outcome Balances

namespace River

variable {river after : River} {sender owner recipient : Address}
  {value : Nat}

theorem mintRawShares_lt
    (returned : river.mintRawShares owner value = .ok after) :
    after.shares < wordLimit := by
  simp only [mintRawShares, bind_eq_ok, uadd_eq_ok, pure_eq_ok] at returned
  obtain ⟨shares, ⟨fits, rfl⟩, owned, -, rfl⟩ := returned
  exact fits

theorem mintShares_lt {amount : Nat}
    (returned : river.mintShares owner value = .ok (after, amount)) :
    after.shares < wordLimit := by
  simp only [mintShares, bind_eq_ok] at returned
  obtain ⟨assets, -, old, -, returned⟩ := returned
  split at returned
  · simp only [bind_eq_ok, pure_eq_ok, Prod.mk.injEq] at returned
    obtain ⟨minted, minting, rfl, -⟩ := returned
    exact mintRawShares_lt minting
  · simp only [bind_eq_ok, pure_eq_ok, Prod.mk.injEq] at returned
    obtain ⟨product, -, shares, -, minted, minting, rfl, -⟩ := returned
    exact mintRawShares_lt minting

theorem transferShares_shares
    (returned : river.transferShares sender recipient value = .ok after) :
    after.shares = river.shares := by
  rw [(transferShares_ok returned).2]
  rfl

theorem depositFor_lt {allowlist : Allowlist}
    (returned : river.depositFor allowlist sender recipient value =
      .ok after) : after.shares < wordLimit := by
  simp only [depositFor, onDeposit, bind_eq_ok, Prod.exists] at returned
  obtain ⟨balance, -, -, -, -, -, toDeposit, -, minted, amount, minting, -, -,
    returned⟩ := returned
  have fits := mintShares_lt minting
  split at returned
  · simp only [bind_eq_ok] at returned
    obtain ⟨-, -, moving⟩ := returned
    exact (transferShares_shares moving).trans_lt fits
  · rw [pure_eq_ok] at returned
    exact returned ▸ fits

theorem earned_lt {rewards : Nat} (supply : river.shares < wordLimit)
    (returned : (if rewards > 0 then river.onEarnings rewards
      else pure river) = .ok after) : after.shares < wordLimit := by
  split at returned
  · simp only [onEarnings, bind_eq_ok] at returned
    obtain ⟨-, -, assets, -, product, -, numerator, -, scaled, -, fee, -,
      denominator, -, shares, -, returned⟩ := returned
    split at returned
    · simp only [bind_eq_ok, pure_eq_ok] at returned
      obtain ⟨minted, minting, old, -, rfl⟩ := returned
      exact mintRawShares_lt minting
    · rw [pure_eq_ok] at returned
      exact returned ▸ supply
  · rw [pure_eq_ok] at returned
    exact returned ▸ supply

theorem setApproval_other {spender first second : Address}
    (different : first ≠ owner ∨ second ≠ spender) :
    (river.setApproval owner spender value).approvals first second =
      river.approvals first second := by
  simp only [setApproval]
  by_cases same : first = owner
  · subst same
    rw [Function.update_self,
      Function.update_of_ne (different.resolve_left (absurd rfl))]
  · rw [Function.update_of_ne same]

/-- What no call does to the approvals of the contracts. -/
structure Approved (deployment : Deployment) (river : River) : Prop where
  redeem : river.approvals deployment.river deployment.redeemManager =
    maxUint256
  wrapper : ∀ spender, river.approvals deployment.wlseth spender = 0
  ownerless : ∀ spender, river.approvals .zero spender = 0

variable {deployment : Deployment}

theorem Approved.of_same (approved : river.Approved deployment)
    (same : after.approvals = river.approvals) :
    after.Approved deployment := by
  constructor <;> rw [same]
  · exact approved.redeem
  · exact approved.wrapper
  · exact approved.ownerless

theorem Approved.set {spender : Address}
    (approved : river.Approved deployment)
    (notRedeem : owner ≠ deployment.river ∨
      spender ≠ deployment.redeemManager)
    (notWrapper : owner ≠ deployment.wlseth) (owned : owner ≠ .zero) :
    (river.setApproval owner spender value).Approved deployment where
  redeem := by
    rw [setApproval_other (notRedeem.imp Ne.symm Ne.symm)]
    exact approved.redeem
  wrapper other := by
    rw [setApproval_other (.inl notWrapper.symm)]
    exact approved.wrapper other
  ownerless other := by
    rw [setApproval_other (.inl owned.symm)]
    exact approved.ownerless other

theorem Approved.spent (approved : river.Approved deployment)
    (positive : value ≠ 0)
    (returned : river.spendAllowance sender owner value = .ok after) :
    after.Approved deployment ∧ owner ≠ deployment.wlseth := by
  have allowance := (spendAllowance_ok returned).1
  have notWrapper : owner ≠ deployment.wlseth := by
    rintro rfl
    have none := approved.wrapper sender
    omega
  have owned : owner ≠ .zero := by
    rintro rfl
    have none := approved.ownerless sender
    omega
  refine ⟨?_, notWrapper⟩
  simp only [spendAllowance, bind_eq_ok] at returned
  obtain ⟨-, -, returned⟩ := returned
  split at returned
  · rename_i limited
    rw [approveFor_ok returned]
    refine approved.set ?_ notWrapper owned
    by_contra standing
    obtain ⟨rfl, rfl⟩ : owner = deployment.river ∧
        sender = deployment.redeemManager := by
      simpa only [not_or, not_not] using standing
    exact limited approved.redeem
  · rw [pure_eq_ok] at returned
    exact returned ▸ approved

/-- The approvals of the contracts, a supply of one word, and `held` shares
owned by the wrapper. -/
structure Standing (deployment : Deployment) (held : Nat) (river : River) :
    Prop where
  supply : river.shares < wordLimit
  approved : river.Approved deployment
  wrapped : held ≤ river.sharesPerOwner deployment.wlseth

namespace Standing

variable {held : Nat} {allowlist : Allowlist}

theorem of_same (standing : river.Standing deployment held)
    (shares : after.shares = river.shares)
    (approvals : after.approvals = river.approvals)
    (owned : after.sharesPerOwner = river.sharesPerOwner) :
    after.Standing deployment held where
  supply := shares ▸ standing.supply
  approved := standing.approved.of_same approvals
  wrapped := owned ▸ standing.wrapped

theorem minted (standing : river.Standing deployment held)
    (fits : (river.minted owner value).shares < wordLimit) :
    (river.minted owner value).Standing deployment held where
  supply := fits
  approved := standing.approved.of_same rfl
  wrapped := standing.wrapped.trans le_credit

theorem moved (standing : river.Standing deployment held)
    (notWrapper : sender ≠ deployment.wlseth) :
    (river.moved sender recipient value).Standing deployment held where
  supply := standing.supply
  approved := standing.approved.of_same rfl
  wrapped := standing.wrapped.trans (le_move notWrapper.symm)

theorem moved_in (standing : river.Standing deployment held)
    (notWrapper : sender ≠ deployment.wlseth) :
    (river.moved sender deployment.wlseth value).Standing deployment
      (held + value) where
  supply := standing.supply
  approved := standing.approved.of_same rfl
  wrapped := by
    have owned := standing.wrapped
    simp only [River.moved]
    rw [move_recipient notWrapper.symm]
    omega

/-- Shares go out, to the wrapper itself perhaps. -/
theorem moved_out (standing : river.Standing deployment held)
    (enough : value ≤ river.sharesPerOwner deployment.wlseth) :
    (river.moved deployment.wlseth recipient value).Standing deployment
      (held - value) where
  supply := standing.supply
  approved := standing.approved.of_same rfl
  wrapped := by
    have owned := standing.wrapped
    simp only [River.moved]
    by_cases same : deployment.wlseth = recipient
    · rw [← same, move_self enough]
      omega
    · rw [move_sender same]
      omega

theorem transferFrom (standing : river.Standing deployment held)
    (returned : river.transferFrom allowlist sender owner recipient value =
      .ok after) :
    after.Standing deployment held ∧
      (recipient = deployment.wlseth →
        after.Standing deployment (held + value)) := by
  simp only [River.transferFrom, bind_eq_ok, require_eq_ok] at returned
  obtain ⟨-, -, -, positive, -, -, -, -, spent, spending, moving⟩ := returned
  obtain ⟨approved, notWrapper⟩ := standing.approved.spent positive spending
  obtain ⟨-, rfl⟩ := transferShares_ok moving
  have standing : spent.Standing deployment held := by
    obtain ⟨-, rfl | rfl⟩ := spendAllowance_ok spending
    · exact standing
    · exact ⟨standing.supply, approved, standing.wrapped⟩
  refine ⟨standing.moved notWrapper, ?_⟩
  rintro rfl
  exact standing.moved_in notWrapper

theorem depositFor (standing : river.Standing deployment held)
    (notWrapper : sender ≠ deployment.wlseth)
    (returned : river.depositFor allowlist sender recipient value =
      .ok after) : after.Standing deployment held := by
  have fits := depositFor_lt returned
  obtain ⟨-, -, rfl⟩ := depositFor_ok returned
  have received : (river.received value).Standing deployment held :=
    standing.of_same rfl rfl rfl
  exact (received.minted fits).moved notWrapper

theorem configured {sanitized : Except Error Unit} {config : RiverConfig}
    (standing : river.Standing deployment held)
    (returned : river.setConfig sender sanitized config = .ok after) :
    after.Standing deployment held := by
  simp only [setConfig, bind_eq_ok, pure_eq_ok] at returned
  obtain ⟨-, -, -, -, rfl⟩ := returned
  exact standing.of_same rfl rfl rfl

theorem approve {spender : Address}
    (standing : river.Standing deployment held)
    (external : deployment.External sender)
    (returned : river.approveFor sender spender value = .ok after) :
    after.Standing deployment held := by
  have after_eq := approveFor_ok returned
  simp only [approveFor, notZeroAddress, bind_eq_ok, require_eq_ok]
    at returned
  obtain ⟨-, owned, -⟩ := returned
  subst after_eq
  exact ⟨standing.supply, standing.approved.set (.inl external.ne_river)
    external.ne_wlseth owned, standing.wrapped⟩

/-- A call by an account that is none of the contracts. -/
theorem call {call : Call} (standing : river.Standing deployment held)
    (external : deployment.External sender)
    (returned : call.apply river allowlist sender = .ok after) :
    after.Standing deployment held := by
  have notWrapper := external.ne_wlseth
  cases call with
  | deposit value => exact standing.depositFor notWrapper returned
  | depositAndTransfer recipient value =>
      simp only [Call.apply, River.depositAndTransfer, bind_eq_ok] at returned
      obtain ⟨-, -, depositing⟩ := returned
      exact standing.depositFor notWrapper depositing
  | transfer recipient value =>
      obtain ⟨-, rfl⟩ := transfer_ok returned
      exact standing.moved notWrapper
  | transferFrom owner recipient value =>
      exact (standing.transferFrom returned).1
  | approve spender value => exact standing.approve external returned
  | increaseAllowance spender additionalValue =>
      simp only [Call.apply, River.increaseAllowance, bind_eq_ok] at returned
      obtain ⟨value, -, approving⟩ := returned
      exact standing.approve external approving
  | decreaseAllowance spender subtractableValue =>
      simp only [Call.apply, River.decreaseAllowance, bind_eq_ok] at returned
      obtain ⟨value, -, approving⟩ := returned
      exact standing.approve external approving
  | proposeAdmin newAdmin =>
      simp only [Call.apply, bind_eq_ok, pure_eq_ok] at returned
      obtain ⟨administrable, -, rfl⟩ := returned
      exact standing.of_same rfl rfl rfl
  | acceptAdmin =>
      simp only [Call.apply, bind_eq_ok, pure_eq_ok] at returned
      obtain ⟨administrable, -, rfl⟩ := returned
      exact standing.of_same rfl rfl rfl
  | setGlobalFee newFee =>
      simp only [Call.apply, River.setGlobalFee, bind_eq_ok, pure_eq_ok]
        at returned
      obtain ⟨-, -, fee, -, rfl⟩ := returned
      exact standing.of_same rfl rfl rfl
  | _ => exact standing.configured returned

end Standing

end River

namespace WLSETH

/-- The wrapper counts the shares of its owners. -/
def Counted (wlseth : WLSETH) : Prop :=
  total wlseth.balanceOf = wlseth.balanceOfLsETH

variable {wlseth after : WLSETH} {river riverAfter : River}
  {allowlist : Allowlist} {self sender owner recipient : Address}
  {value : Nat}

theorem approveFor_balances {spender : Address}
    (returned : wlseth.approveFor owner spender value = .ok after) :
    after.balanceOf = wlseth.balanceOf ∧
      after.balanceOfLsETH = wlseth.balanceOfLsETH := by
  simp only [approveFor, bind_eq_ok, pure_eq_ok] at returned
  obtain ⟨-, -, -, -, rfl⟩ := returned
  exact ⟨rfl, rfl⟩

theorem Counted.of_same (counted : wlseth.Counted)
    (same : after.balanceOf = wlseth.balanceOf ∧
      after.balanceOfLsETH = wlseth.balanceOfLsETH) : after.Counted := by
  rw [Counted, same.1, same.2]
  exact counted

theorem Counted.call {call : Call} (counted : wlseth.Counted)
    (returned : call.apply wlseth river allowlist sender = .ok after) :
    after.Counted ∧ after.balanceOfLsETH = wlseth.balanceOfLsETH := by
  have approved : ∀ {owner spender : Address} {value : Nat},
      wlseth.approveFor owner spender value = .ok after →
      after.Counted ∧ after.balanceOfLsETH = wlseth.balanceOfLsETH := by
    intro owner spender value approving
    have same := approveFor_balances approving
    exact ⟨counted.of_same same, same.2⟩
  cases call with
  | approve spender value => exact approved returned
  | increaseAllowance spender additionalValue =>
      simp only [Call.apply, WLSETH.increaseAllowance, bind_eq_ok]
        at returned
      obtain ⟨value, -, approving⟩ := returned
      exact approved approving
  | decreaseAllowance spender subtractableValue =>
      simp only [Call.apply, WLSETH.decreaseAllowance, bind_eq_ok]
        at returned
      obtain ⟨value, -, approving⟩ := returned
      exact approved approving
  | transfer recipient value =>
      obtain ⟨funded, rfl⟩ := transfer_ok returned
      exact ⟨(total_move funded.owned).trans counted, rfl⟩
  | transferFrom owner recipient value =>
      obtain ⟨funded, -, rfl⟩ := transferFrom_ok returned
      exact ⟨(total_move funded.owned).trans counted, rfl⟩

end WLSETH

namespace System

variable {deployment : Deployment} {system after : System}

structure Standing (deployment : Deployment) (system : System) : Prop where
  river : system.river.Standing deployment system.wlseth.balanceOfLsETH
  counted : system.wlseth.Counted

namespace Standing

theorem fresh (deployment : Deployment) :
    Standing deployment (System.fresh deployment) where
  river := by
    refine ⟨Nat.two_pow_pos 256, ⟨?_, ?_, ?_⟩, Nat.zero_le _⟩
    · simp only [System.fresh, Function.update_self]
    · intro spender
      simp only [System.fresh]
      rw [Function.update_of_ne Deployment.wlseth_ne_river]
    · intro spender
      simp only [System.fresh]
      rw [Function.update_of_ne Deployment.river_ne_zero.symm]
  counted := by
    simp [WLSETH.Counted, System.fresh, WLSETH.fresh, total]

theorem of_same (standing : Standing deployment system)
    (wlseth : after.wlseth = system.wlseth)
    (river : after.river.Standing deployment
      system.wlseth.balanceOfLsETH) : Standing deployment after where
  river := wlseth ▸ river
  counted := wlseth ▸ standing.counted

theorem requestRedeemBy {sender recipient initiator : Address}
    {lsETHAmount id : Nat} (standing : Standing deployment system)
    (returned : system.requestRedeemBy deployment sender lsETHAmount recipient
      initiator = .ok (after, id)) : Standing deployment after := by
  obtain ⟨river, manager, transferred, -, rfl⟩ := requestRedeemBy_ok returned
  exact standing.of_same rfl (standing.river.transferFrom transferred).1

theorem claimRedeemRequests {sender : Address}
    {accepts : Address → Bool} {redeemRequestIds withdrawalEventIds : List Nat}
    {skipAlreadyClaimed : Bool} {depth : Nat} {statuses : List ClaimStatus}
    (standing : Standing deployment system)
    (returned : system.claimRedeemRequests deployment sender accepts
      redeemRequestIds withdrawalEventIds skipAlreadyClaimed depth =
        .ok (after, statuses)) : Standing deployment after := by
  refine claimRedeemRequests_induction ?_ standing returned
  intro call before world manager requestId eventId standing run
  cases riverCalls_call run.paid with
  | inl same => exact standing.of_same (same ▸ rfl) (same ▸ standing.river)
  | inr deposited =>
      obtain ⟨river, deposited, rfl⟩ := deposited
      exact standing.of_same rfl
        (standing.river.depositFor Deployment.wlseth_ne_redeemManager.symm
          deposited)

theorem of_operation (standing : Standing deployment system)
    (operation : Operation deployment system after) :
    Standing deployment after := by
  cases operation with
  | river external returned =>
      exact standing.of_same rfl (standing.river.call external returned)
  | requestRedeem external returned =>
      obtain ⟨_, rfl, -, requested⟩ := requestRedeem_ok returned
      refine requestRedeemBy ?_ requested
      exact standing.of_same rfl (standing.river.moved external.ne_wlseth)
  | requestRedeemFor external returned =>
      exact standing.requestRedeemBy (requestRedeemFor_ok returned)
  | requestRedeemSelf external returned =>
      exact standing.requestRedeemBy (requestRedeemSelf_ok returned)
  | claimRedeemRequests external returned =>
      exact standing.claimRedeemRequests returned
  | wrap external returned =>
      obtain ⟨wlseth, river, minting, rfl⟩ := wrap_ok returned
      obtain ⟨-, moving, rfl⟩ := WLSETH.mint_ok minting
      exact ⟨(standing.river.transferFrom moving).2 rfl,
        total_credit.trans (congrArg (· + _) standing.counted)⟩
  | unwrap external returned =>
      obtain ⟨wlseth, river, burning, rfl⟩ := unwrap_ok returned
      obtain ⟨-, moving, enough, rfl⟩ := WLSETH.burn_ok burning
      obtain ⟨owned, rfl⟩ := River.transfer_ok moving
      refine ⟨standing.river.moved_out owned, ?_⟩
      have counted := standing.counted
      have debited := total_debit enough
      simp only [WLSETH.Counted] at counted ⊢
      omega
  | wrapper external returned =>
      obtain ⟨counted, same⟩ := standing.counted.call returned
      exact ⟨same ▸ standing.river, counted⟩
  | depositToConsensusLayer external returned =>
      obtain ⟨registry, validators, -, -, -, rfl⟩ :=
        depositToConsensusLayer_moves returned
      exact standing.of_same rfl (standing.river.of_same rfl rfl rfl)
  | requestValidatorExits external returned =>
      exact standing.of_same rfl standing.river
  | registry external returned =>
      exact standing.of_same rfl standing.river
  | allowlist external returned =>
      exact standing.of_same rfl standing.river
  | consensusLayerWithdrawal amount =>
      exact standing.of_same rfl standing.river

section Report

variable {funds : ExternalFunds} {timestamp : Nat} {sender : Address}
  {report : ConsensusLayerReport} {increase : River.ReportIncrease}
  {trace : ReportingTrace} {prepared : System}

theorem prepare (standing : Standing deployment system)
    (stages : Preparation funds timestamp sender report system prepared
      increase trace) : Standing deployment prepared := by
  have received : ((system.applied increase report).collected
      stages.redeemManager trace.collected).river.Standing deployment
        system.wlseth.balanceOfLsETH := standing.river.of_same rfl rfl rfl
  have minted := received.minted
    (River.earned_lt received.supply stages.earning)
  rw [stages.prepared_eq]
  exact standing.of_same rfl (minted.of_same rfl rfl rfl)

theorem withdraw (standing : Standing deployment system)
    (returned : system.reportWithdrawToRedeemManager deployment =
      .ok after) : Standing deployment after := by
  rcases reportWithdrawToRedeemManager_ok returned with
    ⟨rfl, -⟩ | ⟨amount, eth, withdrawal⟩
  · exact standing
  · rw [withdrawal.after_eq]
    refine standing.of_same rfl ⟨?_, standing.river.approved.of_same rfl, ?_⟩
    · exact (Nat.sub_le _ _).trans_lt standing.river.supply
    · refine standing.river.wrapped.trans (Nat.le_of_eq ?_)
      exact (debit_of_ne Deployment.wlseth_ne_redeemManager).symm

theorem of_report (standing : Standing deployment system)
    (accounted : system.registry.Accounted
      system.river.depositedValidatorCount)
    (returned : system.setConsensusLayerData deployment funds timestamp
      sender report = .ok (after, trace)) : Standing deployment after := by
  obtain ⟨run⟩ := setConsensusLayerData_run accounted returned
  have standing := (standing.prepare run.stages).withdraw run.withdrawing
  rw [run.after_eq]
  exact standing.of_same rfl (standing.river.of_same rfl rfl rfl)

end Report

theorem of_reachable (reachable : Reachable deployment system) :
    Standing deployment system := by
  have both : Sound deployment system ∧ Standing deployment system := by
    induction reachable with
    | refl => exact ⟨.fresh deployment, fresh deployment⟩
    | tail _ step induction =>
        obtain ⟨sound, standing⟩ := induction
        refine ⟨sound.of_step step, ?_⟩
        cases step with
        | operation operation => exact standing.of_operation operation
        | report returned =>
            exact standing.of_report sound.registry returned
  exact both.2

end Standing

end System

end RiverProtocol
