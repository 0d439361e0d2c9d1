import RiverProtocol.System.Calls
import RiverProtocol.System.Denied
import RiverProtocol.Wlseth.Transfers

/-!
# What others can take

In a run in which an account sends nothing, nobody raises one of its allowances
or opens a redeem request in its name.  Others take nothing of its wrapped
LsETH when it allowed no one, and of its LsETH at most what it allowed them to,
unless it gave an unlimited allowance.
-/

namespace RiverProtocol

open Checked Outcome Balances

variable {account : Address}

namespace River

variable {river middle after : River} {allowlist : Allowlist}
  {sender owner recipient : Address} {value : Nat}

/-- No approval of the account is the unlimited one. -/
def Limited (account : Address) (river : River) : Prop :=
  ∀ spender, river.approvals account spender < maxUint256

/-- The account's approvals do not rise, and while they are limited its shares
fall by no more than they do. -/
structure Guarded (account : Address) (river after : River) : Prop where
  approvals : ∀ spender,
    after.approvals account spender ≤ river.approvals account spender
  shares : Limited account river →
    river.sharesPerOwner account + total (after.approvals account) ≤
      after.sharesPerOwner account + total (river.approvals account)

theorem Guarded.refl (account : Address) (river : River) :
    Guarded account river river :=
  ⟨fun _ => le_rfl, fun _ => le_rfl⟩

theorem Guarded.limited (guarded : Guarded account river after)
    (limited : Limited account river) : Limited account after :=
  fun spender => (guarded.approvals spender).trans_lt (limited spender)

theorem Guarded.trans (first : Guarded account river middle)
    (second : Guarded account middle after) : Guarded account river after where
  approvals spender :=
    (second.approvals spender).trans (first.approvals spender)
  shares limited := by
    have fell := first.shares limited
    have further := second.shares (first.limited limited)
    omega

theorem guarded_of_shares
    (approvals : after.approvals account = river.approvals account)
    (shares : river.sharesPerOwner account ≤ after.sharesPerOwner account) :
    Guarded account river after := by
  refine ⟨fun spender => ?_, ?_⟩
  · rw [approvals]
  · intro _
    rw [approvals]
    exact Nat.add_le_add_right shares _

theorem moved_guarded (other : account ≠ sender) :
    Guarded account river (river.moved sender recipient value) :=
  guarded_of_shares rfl (le_move other)

theorem minted_guarded :
    Guarded account river (river.minted owner value) :=
  guarded_of_shares rfl le_credit

theorem setApproval_guarded {spender : Address} (other : account ≠ owner) :
    Guarded account river (river.setApproval owner spender value) :=
  guarded_of_shares (Function.update_of_ne other _ _) le_rfl

/-- A spender's approval falls by the shares it moves. -/
theorem spent_guarded (allowance : value ≤ river.approvals account sender)
    (funds : value ≤ river.sharesPerOwner account) :
    Guarded account river
      ((river.setApproval account sender
        (river.approvals account sender - value)).moved account recipient
          value) := by
  have lowered : (river.setApproval account sender
      (river.approvals account sender - value)).approvals account =
      debit (river.approvals account) sender value :=
    Function.update_self _ _ _
  refine ⟨fun spender => ?_, ?_⟩
  · show (river.setApproval account sender _).approvals account spender ≤ _
    rw [lowered]
    by_cases same : spender = sender
    · rw [same, debit_self]
      exact Nat.sub_le _ _
    · rw [debit_of_ne same]
  · intro _
    have spent := total_debit allowance
    have left : river.sharesPerOwner account ≤
        move river.sharesPerOwner account recipient value account + value := by
      by_cases same : recipient = account
      · rw [same, move_self funds]
        exact Nat.le_add_right _ _
      · rw [move_sender (Ne.symm same), Nat.sub_add_cancel funds]
    show river.sharesPerOwner account + total ((river.setApproval account
      sender _).approvals account) ≤
        move river.sharesPerOwner account recipient value account + _
    rw [lowered]
    omega

theorem unlimited_guarded (unlimited : ¬ Limited account river) :
    Guarded account river (river.moved account recipient value) :=
  ⟨fun _ => le_rfl, fun limited => absurd limited unlimited⟩

theorem transferFrom_guarded
    (returned : river.transferFrom allowlist sender owner recipient value =
      .ok after) : Guarded account river after := by
  by_cases same : account = owner
  · subst same
    simp only [transferFrom, spendAllowance, bind_eq_ok, require_eq_ok]
      at returned
    obtain ⟨-, -, -, -, -, funds, -, -, spent, ⟨-, allowance, spending⟩,
      moving⟩ := returned
    rw [(transferShares_ok moving).2]
    split at spending
    · rw [approveFor_ok spending]
      exact spent_guarded allowance funds
    · rename_i unlimited
      rw [← pure_eq_ok.mp spending]
      refine unlimited_guarded fun limited => ?_
      exact (limited sender).ne (not_not.mp unlimited)
  · obtain ⟨-, -, -, rfl | rfl⟩ := transferFrom_ok returned
    · exact moved_guarded same
    · exact (setApproval_guarded same).trans (moved_guarded same)

theorem depositFor_guarded (other : account ≠ sender)
    (returned : river.depositFor allowlist sender recipient value =
      .ok after) : Guarded account river after := by
  obtain ⟨-, -, rfl⟩ := depositFor_ok returned
  have receiving : Guarded account river (river.received value) :=
    guarded_of_shares rfl le_rfl
  exact (receiving.trans minted_guarded).trans (moved_guarded other)

theorem Call.apply_guarded {call : Call} (other : account ≠ sender)
    (returned : call.apply river allowlist sender = .ok after) :
    Guarded account river after := by
  cases Call.apply_effect returned with
  | deposit depositing => exact depositFor_guarded other depositing
  | transfer moving =>
      rw [(transfer_ok moving).2]
      exact moved_guarded other
  | transferFrom moving => exact transferFrom_guarded moving
  | approve => exact setApproval_guarded other
  | configure => exact guarded_of_shares rfl le_rfl

end River

namespace WLSETH

variable {wlseth middle after : WLSETH} {river : River}
  {allowlist : Allowlist} {sender recipient : Address} {value : Nat}

/-- Approvals do not rise, and without any of them no shares are taken. -/
structure Guarded (account : Address) (wlseth after : WLSETH) : Prop where
  approvals : ∀ spender,
    after.approvals account spender ≤ wlseth.approvals account spender
  shares : (∀ spender, wlseth.approvals account spender = 0) →
    wlseth.balanceOf account ≤ after.balanceOf account

theorem Guarded.refl (account : Address) (wlseth : WLSETH) :
    Guarded account wlseth wlseth :=
  ⟨fun _ => le_rfl, fun _ => le_rfl⟩

theorem Guarded.trans (first : Guarded account wlseth middle)
    (second : Guarded account middle after) :
    Guarded account wlseth after where
  approvals spender :=
    (second.approvals spender).trans (first.approvals spender)
  shares none := by
    refine (first.shares none).trans (second.shares fun spender => ?_)
    exact Nat.le_zero.mp ((first.approvals spender).trans_eq (none spender))

theorem approveFor_guarded {owner spender : Address}
    (lowered : account = owner → value ≤ wlseth.approvals owner spender)
    (returned : wlseth.approveFor owner spender value = .ok after) :
    Guarded account wlseth after := by
  simp only [approveFor, bind_eq_ok, pure_eq_ok] at returned
  obtain ⟨-, -, -, -, rfl⟩ := returned
  refine ⟨fun other => ?_, fun _ => le_rfl⟩
  dsimp only
  by_cases same : account = owner
  · rw [← same, Function.update_self]
    by_cases named : other = spender
    · rw [named, Function.update_self, same]
      exact lowered same
    · rw [Function.update_of_ne named]
  · rw [Function.update_of_ne same]

theorem moved_guarded {shares : Nat} (other : account ≠ sender) :
    Guarded account wlseth { wlseth with
      balanceOf := move wlseth.balanceOf sender recipient shares } :=
  ⟨fun _ => le_rfl, fun _ => le_move other⟩

theorem Call.apply_guarded {call : Call} (other : account ≠ sender)
    (returned : call.apply wlseth river allowlist sender = .ok after) :
    Guarded account wlseth after := by
  cases call with
  | approve spender value =>
      exact approveFor_guarded (absurd · other) returned
  | increaseAllowance spender additionalValue =>
      simp only [Call.apply, WLSETH.increaseAllowance, bind_eq_ok]
        at returned
      obtain ⟨value, -, approving⟩ := returned
      exact approveFor_guarded (absurd · other) approving
  | decreaseAllowance spender subtractableValue =>
      simp only [Call.apply, WLSETH.decreaseAllowance, bind_eq_ok]
        at returned
      obtain ⟨value, -, approving⟩ := returned
      exact approveFor_guarded (absurd · other) approving
  | transfer recipient value =>
      simp only [Call.apply, WLSETH.transfer, bind_eq_ok, pure_eq_ok,
        Prod.exists] at returned
      obtain ⟨-, -, funds, -, -, -, -, -, moved, answer, moving, rfl⟩ :=
        returned
      obtain ⟨-, rfl, -⟩ := transferValue_ok moving
      exact moved_guarded other
  | transferFrom owner recipient value =>
      simp only [Call.apply, WLSETH.transferFrom, bind_eq_ok, require_eq_ok,
        Prod.exists] at returned
      obtain ⟨-, positive, funds, -, -, -, -, -, -, allowance, moved, answer,
        moving, returned⟩ := returned
      obtain ⟨-, rfl, -⟩ := transferValue_ok moving
      have taken : Guarded account wlseth
          (wlseth.movedValue river owner recipient value) := by
        by_cases same : account = owner
        · refine ⟨fun _ => le_rfl, fun none => ?_⟩
          -- a positive value is within no allowance
          rw [← same, none sender] at allowance
          omega
        · exact moved_guarded same
      refine taken.trans ?_
      split at returned
      · simp only [spendAllowance] at returned
        split at returned
        · simp only [bind_eq_ok, usub_eq_ok] at returned
          obtain ⟨remaining, ⟨-, rfl⟩, approving⟩ := returned
          exact approveFor_guarded (fun _ => Nat.sub_le _ _) approving
        · rw [pure_eq_ok] at returned
          rw [returned]
          exact .refl _ _
      · rw [pure_eq_ok] at returned
        rw [returned]
        exact .refl _ _

end WLSETH

namespace RedeemManager

variable {manager middle after : RedeemManager}

/-- Requests the account opened were there before, with their recipient. -/
def Opened (account : Address) (manager after : RedeemManager) : Prop :=
  ∀ (id : Nat) (request : RedeemRequest),
    after.redeemQueue[id]? = some request → request.initiator = account →
    ∃ before, manager.redeemQueue[id]? = some before ∧
      before.initiator = account ∧ before.recipient = request.recipient

theorem opened_of_queue (same : after.redeemQueue = manager.redeemQueue) :
    Opened account manager after := by
  intro id request found initiated
  rw [same] at found
  exact ⟨request, found, initiated, rfl⟩

theorem Opened.trans (first : Opened account manager middle)
    (second : Opened account middle after) : Opened account manager after := by
  intro id request found initiated
  obtain ⟨between, foundBetween, initiatedBetween, recipient⟩ :=
    second id request found initiated
  obtain ⟨before, foundBefore, initiatedBefore, recipientBefore⟩ :=
    first id between foundBetween initiatedBetween
  exact ⟨before, foundBefore, initiatedBefore,
    recipientBefore.trans recipient⟩

theorem requestRedeem_opened {E : Type} {river : RiverCalls E}
    {world worldAfter : E} {lsETHAmount id : Nat}
    {recipient initiator : Address} (other : account ≠ initiator)
    (returned : requestRedeem river world manager lsETHAmount recipient
      initiator = .ok (after, worldAfter, id)) :
    Opened account manager after := by
  obtain ⟨-, -, -, -, height, maximum, -, -, -, rfl⟩ :=
    requestRedeem_eq_ok.mp returned
  intro position request found initiated
  dsimp only at found
  rw [List.getElem?_append] at found
  split at found
  · exact ⟨request, found, initiated, rfl⟩
  · obtain rfl := List.mem_singleton.mp (List.mem_of_getElem? found)
    exact absurd initiated.symm other

theorem ClaimRun.opened {E : Type} {river : RiverCalls E} {call : ClaimCall}
    {world worldAfter : E} {redeemRequestId withdrawalEventId : Nat}
    (run : ClaimRun river call world manager redeemRequestId
      withdrawalEventId worldAfter after) : Opened account manager after := by
  intro id request found initiated
  rw [run.queue_set, List.getElem?_set] at found
  split at found
  · rename_i same
    split at found
    · obtain rfl := Option.some.inj found
      exact ⟨run.request, same ▸ run.requestFound, initiated, rfl⟩
    · contradiction
  · exact ⟨request, found, initiated, rfl⟩

end RedeemManager

namespace System

variable {deployment : Deployment} {system middle after : System}

/-- What others leave of an account. -/
structure Guarded (account : Address) (system after : System) : Prop where
  river : River.Guarded account system.river after.river
  wrapper : WLSETH.Guarded account system.wlseth after.wlseth
  requests : RedeemManager.Opened account system.redeemManager
    after.redeemManager

theorem Guarded.refl (account : Address) (system : System) :
    Guarded account system system :=
  ⟨.refl _ _, .refl _ _, RedeemManager.opened_of_queue rfl⟩

theorem Guarded.trans (first : Guarded account system middle)
    (second : Guarded account middle after) : Guarded account system after :=
  ⟨first.river.trans second.river, first.wrapper.trans second.wrapper,
    first.requests.trans second.requests⟩

section Redeeming

variable {sender recipient initiator : Address} {lsETHAmount id : Nat}

theorem requestRedeemBy_guarded (other : account ≠ initiator)
    (returned : system.requestRedeemBy deployment sender lsETHAmount recipient
      initiator = .ok (after, id)) : Guarded account system after := by
  obtain ⟨river, manager, transferred, requested, rfl⟩ :=
    requestRedeemBy_ok returned
  exact ⟨River.transferFrom_guarded transferred, .refl _ _,
    RedeemManager.requestRedeem_opened other requested⟩

theorem requestRedeem_guarded (other : account ≠ sender)
    (returned : system.requestRedeem deployment sender lsETHAmount recipient =
      .ok (after, id)) : Guarded account system after := by
  obtain ⟨river, rfl, -, requested⟩ := requestRedeem_ok returned
  have held : Guarded account system { system with
      river := system.river.moved sender deployment.river lsETHAmount } :=
    ⟨River.moved_guarded other, .refl _ _, RedeemManager.opened_of_queue rfl⟩
  exact held.trans (requestRedeemBy_guarded other requested)

/-- A claim may pay River, which then mints to the redeem manager. -/
theorem claimRedeemRequests_guarded {accepts : Address → Bool}
    {redeemRequestIds withdrawalEventIds : List Nat}
    {skipAlreadyClaimed : Bool} {depth : Nat} {statuses : List ClaimStatus}
    (external : deployment.External account)
    (returned : system.claimRedeemRequests deployment sender accepts
      redeemRequestIds withdrawalEventIds skipAlreadyClaimed depth =
        .ok (after, statuses)) : Guarded account system after := by
  refine claimRedeemRequests_induction
    (motive := fun after => Guarded account system after) ?_ (.refl _ _)
    returned
  intro call before world manager requestId eventId guarded run
  refine guarded.trans ?_
  cases riverCalls_call run.paid with
  | inl same =>
      rw [same]
      exact ⟨.refl _ _, .refl _ _, run.opened⟩
  | inr deposited =>
      obtain ⟨river, deposited, rfl⟩ := deposited
      exact ⟨River.depositFor_guarded external.ne_redeemManager deposited,
        .refl _ _, run.opened⟩

end Redeeming

theorem Call.apply_guarded {sender : Address} {call : Call}
    (external : deployment.External account) (other : account ≠ sender)
    (returned : call.apply deployment system sender = .ok after) :
    Guarded account system after := by
  have queue : RedeemManager.Opened account system.redeemManager
      system.redeemManager := RedeemManager.opened_of_queue rfl
  cases call with
  | river call =>
      simp only [Call.apply, bind_eq_ok, pure_eq_ok] at returned
      obtain ⟨river, returned, rfl⟩ := returned
      exact ⟨River.Call.apply_guarded other returned, .refl _ _,
        queue⟩
  | requestRedeem lsETHAmount recipient =>
      simp only [Call.apply, bind_eq_ok, pure_eq_ok, Prod.exists] at returned
      obtain ⟨system, id, returned, rfl⟩ := returned
      exact requestRedeem_guarded other returned
  | requestRedeemFor lsETHAmount recipient =>
      simp only [Call.apply, bind_eq_ok, pure_eq_ok, Prod.exists] at returned
      obtain ⟨system, id, returned, rfl⟩ := returned
      exact requestRedeemBy_guarded other
        (requestRedeemFor_ok returned)
  | requestRedeemSelf lsETHAmount =>
      simp only [Call.apply, bind_eq_ok, pure_eq_ok, Prod.exists] at returned
      obtain ⟨system, id, returned, rfl⟩ := returned
      exact requestRedeemBy_guarded other
        (requestRedeemSelf_ok returned)
  | claimRedeemRequests accepts redeemRequestIds withdrawalEventIds
      skipAlreadyClaimed depth =>
      simp only [Call.apply, bind_eq_ok, pure_eq_ok, Prod.exists] at returned
      obtain ⟨system, statuses, returned, rfl⟩ := returned
      exact claimRedeemRequests_guarded external returned
  | wrap recipient shares =>
      obtain ⟨wlseth, river, minting, rfl⟩ := wrap_ok returned
      obtain ⟨-, transferred, rfl⟩ := WLSETH.mint_ok minting
      exact ⟨River.transferFrom_guarded transferred,
        ⟨fun _ => le_rfl, fun _ => le_credit⟩, queue⟩
  | unwrap recipient shares =>
      obtain ⟨wlseth, river, burning, rfl⟩ := unwrap_ok returned
      obtain ⟨-, transferred, -, rfl⟩ := WLSETH.burn_ok burning
      obtain ⟨-, rfl⟩ := River.transfer_ok transferred
      exact ⟨River.moved_guarded external.ne_wlseth,
        ⟨fun _ => le_rfl, fun _ => (debit_of_ne other).ge⟩, queue⟩
  | wrapper call =>
      simp only [Call.apply, bind_eq_ok, pure_eq_ok] at returned
      obtain ⟨wlseth, returned, rfl⟩ := returned
      exact ⟨.refl _ _, WLSETH.Call.apply_guarded other returned, queue⟩
  | depositToConsensusLayer contract allocations depositRoot =>
      obtain ⟨registry, validators, -, -, -, rfl⟩ :=
        depositToConsensusLayer_moves returned
      exact ⟨River.guarded_of_shares rfl le_rfl, .refl _ _, queue⟩
  | requestValidatorExits allocations =>
      simp only [Call.apply, bind_eq_ok, pure_eq_ok] at returned
      obtain ⟨registry, returned, rfl⟩ := returned
      exact ⟨.refl _ _, .refl _ _, queue⟩
  | registry blockNumber call =>
      simp only [Call.apply, bind_eq_ok, pure_eq_ok] at returned
      obtain ⟨registry, returned, rfl⟩ := returned
      exact ⟨.refl _ _, .refl _ _, queue⟩
  | allowlist holder call =>
      simp only [Call.apply, bind_eq_ok, pure_eq_ok] at returned
      obtain ⟨allowlist, returned, rfl⟩ := returned
      exact ⟨.refl _ _, .refl _ _, queue⟩

/-- A report mints to the collector and burns from the redeem manager. -/
theorem report_guarded {funds : ExternalFunds} {timestamp : Nat}
    {sender : Address} {report : ConsensusLayerReport}
    {trace : ReportingTrace} (sound : Sound deployment system)
    (external : deployment.External account)
    (returned : system.setConsensusLayerData deployment funds timestamp
      sender report = .ok (after, trace)) : Guarded account system after := by
  obtain ⟨run⟩ := setConsensusLayerData_run sound.registry returned
  obtain ⟨max, pulling⟩ := run.pulled
  have prepared : Guarded account system run.prepared := by
    refine ⟨?_, ?_, RedeemManager.opened_of_queue ?_⟩
    · rw [run.stages.prepared_eq]
      exact River.guarded_of_shares rfl le_credit
    · rw [run.stages.prepared_eq]
      exact .refl _ _
    · rw [(RedeemManager.pullExceedingEth_ok pulling).2.2]
  have withdrawn : Guarded account run.prepared run.withdrawn := by
    rcases reportWithdrawToRedeemManager_ok run.withdrawing with
      ⟨same, -⟩ | ⟨amount, eth, withdrawal⟩
    · rw [same]
      exact .refl _ _
    · obtain ⟨-, -, height, -, reported⟩ :=
        RedeemManager.reportWithdraw_ok withdrawal.reported
      refine ⟨?_, ?_, RedeemManager.opened_of_queue ?_⟩
      · rw [withdrawal.after_eq]
        exact River.guarded_of_shares rfl
          (debit_of_ne external.ne_redeemManager).ge
      · rw [withdrawal.after_eq]
        exact .refl _ _
      · rw [reported]
  have settled : Guarded account run.withdrawn
      (run.withdrawn.settled run.deposits) :=
    ⟨River.guarded_of_shares rfl le_rfl, .refl _ _,
      RedeemManager.opened_of_queue rfl⟩
  have guarded := (prepared.trans withdrawn).trans settled
  rwa [← run.after_eq] at guarded

/-- While an account sends nothing, no approval of it rises, no redeem request
is opened in its name, its wrapped LsETH does not fall without any approval,
and its LsETH falls by no more than limited approvals do. -/
theorem taken_within_approvals {reached : System}
    (reachable : Reachable deployment system)
    (external : deployment.External account)
    (run : RunOfOthers deployment account system reached) :
    Guarded account system reached := by
  have both : Reachable deployment reached ∧
      Guarded account system reached := by
    induction run with
    | refl => exact ⟨reachable, .refl _ _⟩
    | tail _ step induction =>
        obtain ⟨before, guarded⟩ := induction
        refine ⟨before.tail step.step, guarded.trans ?_⟩
        cases step with
        | call sender other returned =>
            exact Call.apply_guarded external (Ne.symm other) returned
        | consensusLayerWithdrawal amount =>
            exact ⟨.refl _ _, .refl _ _, RedeemManager.opened_of_queue rfl⟩
        | report returned =>
            exact report_guarded (Sound.of_reachable before) external returned
  exact both.2

section Sample

open RedeemManager (alice)

/-- Alice deposits 32 ether, and lets a spender move 5 of her LsETH. -/
def allowanceGiven : Except Error System := do
  let deposited ← Call.apply (.river (.deposit depositSize)) sample
    (fresh sample) alice
  Call.apply (.river (.approve (.ofNat 2) (5 * ether))) sample deposited alice

theorem allowanceGiven_facts (returned : allowanceGiven = .ok system) :
    Reachable sample system ∧ River.Limited alice system.river := by
  simp only [allowanceGiven, bind_eq_ok] at returned
  obtain ⟨deposited, depositing, approving⟩ := returned
  have external : sample.External alice := by decide
  have reachable : Reachable sample deposited :=
    .single (.operation (Call.operation external depositing))
  refine ⟨reachable.tail (.operation (Call.operation external approving)), ?_⟩
  simp only [Call.apply, River.Call.apply, River.deposit, River.approve,
    bind_eq_ok, pure_eq_ok] at depositing approving
  obtain ⟨first, depositing, rfl⟩ := depositing
  obtain ⟨second, approving, rfl⟩ := approving
  have none : ∀ spender, first.approvals alice spender = 0 := by
    intro spender
    have other : alice ≠ sample.river := by decide
    have kept : (fresh sample).river.approvals alice = fun _ => 0 := by
      simp only [fresh, Function.update_of_ne other]
    rw [(River.depositFor_ok depositing).2.2]
    exact congrFun kept spender
  have written : second.approvals alice =
      Function.update (first.approvals alice) (.ofNat 2) (5 * ether) := by
    rw [River.approveFor_ok approving]
    exact Function.update_self alice _ first.approvals
  intro spender
  dsimp only
  rw [written]
  by_cases same : spender = .ofNat 2
  · rw [same, Function.update_self]
    decide
  · rw [Function.update_of_ne same, none]
    decide

/-- The spender takes 2 of them. -/
theorem taken_within_approvals_sample : ∃ system reached,
    allowanceGiven = .ok system ∧
      Call.apply (.river (.transferFrom alice (.ofNat 2) (2 * ether))) sample
        system (.ofNat 2) = .ok reached ∧
      reached.river.sharesPerOwner alice = 30 * ether ∧
      River.Limited alice system.river ∧ Guarded alice system reached := by
  have checked : returns allowanceGiven (fun system =>
      returns (Call.apply (.river (.transferFrom alice (.ofNat 2)
        (2 * ether))) sample system (.ofNat 2)) fun reached =>
          reached.river.sharesPerOwner alice = 30 * ether) = true := by
    decide +kernel
  obtain ⟨system, returned, moving⟩ := returns_iff.mp checked
  obtain ⟨reached, moved, left⟩ := returns_iff.mp moving
  obtain ⟨reachable, limited⟩ := allowanceGiven_facts returned
  refine ⟨system, reached, returned, moved, of_decide_eq_true left, limited,
    ?_⟩
  exact taken_within_approvals reachable (by decide)
    (.single (.call (by decide) (by decide) moved))

end Sample

end System

end RiverProtocol
