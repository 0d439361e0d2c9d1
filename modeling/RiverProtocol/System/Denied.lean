import RiverProtocol.System.Books

/-!
# A denied account is frozen

An account that River's allowlist denies neither gives nor receives shares of
River or of the wrapper, and its redeem requests are neither changed nor paid.
The contracts whose shares the protocol itself moves, and the collector of the
fees, are not such accounts.
-/

namespace RiverProtocol

open Checked Outcome Balances Lists

namespace River

variable {river after : River} {allowlist : Allowlist}
  {sender recipient owner account : Address} {value : Nat}

theorem moved_other (notSender : account ≠ sender)
    (notRecipient : account ≠ recipient) :
    (river.moved sender recipient value).sharesPerOwner account =
      river.sharesPerOwner account :=
  (credit_of_ne notRecipient).trans (debit_of_ne notSender)

theorem ne_of_allowed (denied : allowlist.isDenied account = true)
    (allowed : allowlist.isDenied owner = false) : account ≠ owner := by
  rintro rfl
  rw [denied] at allowed
  exact Bool.noConfusion allowed

theorem transfer_denied (denied : allowlist.isDenied account = true)
    (returned : river.transfer allowlist sender recipient value =
      .ok after) :
    after.sharesPerOwner account = river.sharesPerOwner account := by
  obtain ⟨-, rfl⟩ := transfer_ok returned
  simp only [transfer, onTransfer, bind_eq_ok, require_eq_ok] at returned
  obtain ⟨-, ⟨-, fromAllowed, toAllowed⟩, -⟩ := returned
  exact moved_other (ne_of_allowed denied fromAllowed)
    (ne_of_allowed denied toAllowed)

theorem transferFrom_denied (denied : allowlist.isDenied account = true)
    (returned : river.transferFrom allowlist sender owner recipient value =
      .ok after) :
    after.sharesPerOwner account = river.sharesPerOwner account := by
  have effect := transferFrom_ok returned
  simp only [transferFrom, onTransfer, bind_eq_ok, require_eq_ok]
    at returned
  obtain ⟨-, ⟨-, fromAllowed, toAllowed⟩, -⟩ := returned
  have notOwner := ne_of_allowed denied fromAllowed
  have notRecipient := ne_of_allowed denied toAllowed
  obtain ⟨-, -, -, rfl | rfl⟩ := effect
  · exact moved_other notOwner notRecipient
  · exact moved_other notOwner notRecipient

/-- A deposit checks its depositor and its recipient. -/
theorem depositFor_denied (denied : allowlist.isDenied account = true)
    (returned : river.depositFor allowlist sender recipient value =
      .ok after) :
    after.sharesPerOwner account = river.sharesPerOwner account := by
  obtain ⟨-, -, after_eq⟩ := depositFor_ok returned
  simp only [depositFor, onDeposit, Allowlist.onlyAllowed, bind_eq_ok,
    require_eq_ok, uadd_eq_ok, Prod.exists] at returned
  obtain ⟨balance, -, -, -, -, -, toDeposit, -, minted, shares, -, -,
    ⟨-, senderAllowed, -⟩, moving⟩ := returned
  have notSender := ne_of_allowed denied senderAllowed
  have notRecipient : account ≠ recipient := by
    split at moving
    · simp only [bind_eq_ok, require_eq_ok] at moving
      obtain ⟨-, recipientAllowed, -⟩ := moving
      exact ne_of_allowed denied recipientAllowed
    · rename_i same
      rwa [← not_not.mp same]
  rw [after_eq, moved_other notSender notRecipient]
  exact credit_of_ne notSender

theorem Call.apply_denied {call : Call}
    (denied : allowlist.isDenied account = true)
    (returned : call.apply river allowlist sender = .ok after) :
    after.sharesPerOwner account = river.sharesPerOwner account := by
  cases Call.apply_effect returned with
  | deposit depositing => exact depositFor_denied denied depositing
  | transfer moving => exact transfer_denied denied moving
  | transferFrom moving => exact transferFrom_denied denied moving
  | approve => rfl
  | configure => rfl

end River

namespace WLSETH

variable {wlseth after : WLSETH} {river riverAfter : River}
  {allowlist : Allowlist} {self sender recipient owner account : Address}
  {value : Nat}

theorem approveFor_denied {spender : Address}
    (returned : wlseth.approveFor owner spender value = .ok after) :
    after.balanceOf account = wlseth.balanceOf account := by
  simp only [approveFor, bind_eq_ok, pure_eq_ok] at returned
  obtain ⟨-, -, -, -, rfl⟩ := returned
  rfl

theorem transferValue_denied {movedShares : Bool}
    (denied : allowlist.isDenied account = true)
    (returned : wlseth.transferValue river allowlist sender recipient value =
      .ok (after, movedShares)) :
    after.balanceOf account = wlseth.balanceOf account := by
  simp only [transferValue, River.onTransfer, bind_eq_ok, require_eq_ok]
    at returned
  obtain ⟨-, ⟨-, fromAllowed, toAllowed⟩, shares, -, returned⟩ := returned
  split at returned
  · simp only [bind_eq_ok, usub_eq_ok, uadd_eq_ok, pure_eq_ok,
      Prod.mk.injEq] at returned
    obtain ⟨debited, ⟨-, rfl⟩, credited, ⟨-, rfl⟩, rfl, -⟩ := returned
    have other : account ≠ recipient := River.ne_of_allowed denied toAllowed
    have another : account ≠ sender := River.ne_of_allowed denied fromAllowed
    dsimp only
    rw [Function.update_of_ne other, Function.update_of_ne another]
  · simp only [pure_eq_ok, Prod.mk.injEq] at returned
    obtain ⟨rfl, -⟩ := returned
    rfl

theorem Call.apply_denied {call : Call}
    (denied : allowlist.isDenied account = true)
    (returned : call.apply wlseth river allowlist sender = .ok after) :
    after.balanceOf account = wlseth.balanceOf account := by
  cases call with
  | approve spender value => exact approveFor_denied returned
  | increaseAllowance spender additionalValue =>
      simp only [Call.apply, WLSETH.increaseAllowance, bind_eq_ok]
        at returned
      obtain ⟨value, -, approving⟩ := returned
      exact approveFor_denied approving
  | decreaseAllowance spender subtractableValue =>
      simp only [Call.apply, WLSETH.decreaseAllowance, bind_eq_ok]
        at returned
      obtain ⟨value, -, approving⟩ := returned
      exact approveFor_denied approving
  | transfer recipient value =>
      simp only [Call.apply, WLSETH.transfer, bind_eq_ok, pure_eq_ok,
        Prod.exists] at returned
      obtain ⟨-, -, funds, -, -, -, -, -, moved, answer, moving, rfl⟩ :=
        returned
      exact transferValue_denied denied moving
  | transferFrom owner recipient value =>
      simp only [Call.apply, WLSETH.transferFrom, bind_eq_ok, Prod.exists]
        at returned
      obtain ⟨-, -, funds, -, -, -, -, -, -, -, moved, answer, moving,
        returned⟩ := returned
      have kept := transferValue_denied denied moving
      split at returned
      · rw [← kept]
        simp only [spendAllowance] at returned
        split at returned
        · simp only [bind_eq_ok] at returned
          obtain ⟨remaining, -, approving⟩ := returned
          exact approveFor_denied approving
        · rw [pure_eq_ok] at returned
          rw [returned]
      · rw [pure_eq_ok] at returned
        rw [← returned]
        exact kept

theorem mint_denied (denied : allowlist.isDenied account = true)
    (returned : wlseth.mint self river allowlist sender recipient value =
      .ok (after, riverAfter)) :
    after.balanceOf account = wlseth.balanceOf account ∧
      riverAfter.sharesPerOwner account = river.sharesPerOwner account := by
  obtain ⟨allowed, moving, rfl⟩ := mint_ok returned
  exact ⟨credit_of_ne (River.ne_of_allowed denied allowed),
    River.transferFrom_denied denied moving⟩

theorem burn_denied (denied : allowlist.isDenied account = true)
    (returned : wlseth.burn self river allowlist sender recipient value =
      .ok (after, riverAfter)) :
    after.balanceOf account = wlseth.balanceOf account ∧
      riverAfter.sharesPerOwner account = river.sharesPerOwner account := by
  obtain ⟨allowed, moving, -, rfl⟩ := burn_ok returned
  exact ⟨debit_of_ne (River.ne_of_allowed denied allowed),
    River.transfer_denied denied moving⟩

end WLSETH

def RedeemRequest.OwnedBy (request : RedeemRequest) (account : Address) :
    Prop :=
  request.recipient = account ∨ request.initiator = account

/-- The request whose claim an event reports. -/
def RedeemLog.claimOf : RedeemLog → Option Nat
  | .satisfiedRedeemRequest redeemRequestId _ _ _ _ _ => some redeemRequestId
  | .claimedRedeemRequest redeemRequestId _ _ _ _ => some redeemRequestId
  | _ => none

namespace RedeemManager

variable {account : Address} {manager middle after : RedeemManager}

/-- No request of the account is changed, claimed or paid. -/
structure Untouched (account : Address) (manager after : RedeemManager) :
    Prop where
  requests : ∀ (id : Nat) (request : RedeemRequest),
    manager.redeemQueue[id]? = some request → request.OwnedBy account →
    after.redeemQueue[id]? = some request
  logs : ∃ later, after.logs = manager.logs ++ later ∧
    ∀ log ∈ later, ∀ (id : Nat) (request : RedeemRequest),
      manager.redeemQueue[id]? = some request →
      request.OwnedBy account → log.claimOf ≠ some id
  transfers : ∃ later, after.transfers = manager.transfers ++ later ∧
    ∀ amount, .claimPayment account amount ∉ later

theorem Untouched.refl (account : Address) (manager : RedeemManager) :
    Untouched account manager manager :=
  ⟨fun _ _ found _ => found, ⟨[], by simp, by simp⟩, ⟨[], by simp, by simp⟩⟩

theorem Untouched.trans (first : Untouched account manager middle)
    (second : Untouched account middle after) :
    Untouched account manager after := by
  obtain ⟨requests, ⟨logs, logged, silent⟩, transfers, transferred, unpaid⟩ :=
    first
  obtain ⟨laterRequests, ⟨laterLogs, laterLogged, laterSilent⟩,
    laterTransfers, laterTransferred, laterUnpaid⟩ := second
  refine ⟨?_, ⟨logs ++ laterLogs, ?_, ?_⟩, transfers ++ laterTransfers, ?_,
    ?_⟩
  · intro id request found owned
    exact laterRequests id request (requests id request found owned) owned
  · rw [laterLogged, logged, List.append_assoc]
  · intro log member id request found owned
    cases List.mem_append.mp member with
    | inl before => exact silent log before id request found owned
    | inr later =>
        exact laterSilent log later id request
          (requests id request found owned) owned
  · rw [laterTransferred, transferred, List.append_assoc]
  · intro amount member
    cases List.mem_append.mp member with
    | inl before => exact unpaid amount before
    | inr later => exact laterUnpaid amount later

/-- Events that report no claim, and no ether sent to a recipient. -/
theorem Untouched.of_silent (logs : List RedeemLog)
    (transfers : List EthTransfer)
    (queue : ∀ (id : Nat) (request : RedeemRequest),
      manager.redeemQueue[id]? = some request →
      after.redeemQueue[id]? = some request)
    (logged : after.logs = manager.logs ++ logs)
    (silent : ∀ log ∈ logs, log.claimOf = none)
    (transferred : after.transfers = manager.transfers ++ transfers)
    (unpaid : ∀ recipient amount,
      .claimPayment recipient amount ∉ transfers) :
    Untouched account manager after := by
  refine ⟨fun id request found _ => queue id request found, ⟨logs, logged, ?_⟩,
    transfers, transferred, unpaid account⟩
  intro log member id request _ _
  rw [silent log member]
  exact nofun

theorem requestRedeem_untouched {E : Type} {river : RiverCalls E}
    {world worldAfter : E} {lsETHAmount id : Nat}
    {recipient initiator : Address}
    (returned : requestRedeem river world manager lsETHAmount recipient
      initiator = .ok (after, worldAfter, id)) :
    Untouched account manager after := by
  obtain ⟨-, -, -, -, height, maximum, -, -, -, rfl⟩ :=
    requestRedeem_eq_ok.mp returned
  refine .of_silent _ [] ?_ (List.append_assoc _ _ _) ?_
    (List.append_nil _).symm (fun _ _ => List.not_mem_nil)
  · intro position request found
    have inside := (List.getElem?_eq_some_iff.mp found).1
    dsimp only
    rw [List.getElem?_append_left inside]
    exact found
  · simp [RedeemLog.claimOf]

theorem reportWithdraw_untouched {lsETHWithdrawable msgValue : Nat}
    (returned : reportWithdraw manager lsETHWithdrawable msgValue =
      .ok after) : Untouched account manager after := by
  obtain ⟨-, -, height, -, rfl⟩ := reportWithdraw_ok returned
  refine .of_silent _ [] (fun _ _ found => found)
    (List.append_assoc _ _ _) ?_ (List.append_nil _).symm
    (fun _ _ => List.not_mem_nil)
  simp [RedeemLog.claimOf]

theorem pullExceedingEth_untouched {max sent : Nat}
    (returned : pullExceedingEth manager max = .ok (after, sent)) :
    Untouched account manager after := by
  obtain ⟨-, -, rfl⟩ := pullExceedingEth_ok returned
  refine .of_silent [] _ (fun _ _ found => found)
    (List.append_nil _).symm (by simp) rfl ?_
  intro recipient amount
  split <;> simp

theorem claimRedeemRequest_logs {depth : Nat}
    {params final : ClaimParameters}
    (returned : claimRedeemRequest depth manager params =
      .ok (after, final)) :
    ∃ later, after.logs = manager.logs ++ later ∧
      ∀ log ∈ later, log.claimOf = some params.redeemRequestId := by
  obtain ⟨matched, ⟨-, later, logged, claims⟩, saving⟩ :=
    claimRedeemRequest_induction
      (motive := fun next nextParams =>
        nextParams.redeemRequestId = params.redeemRequestId ∧
        ∃ later, next.logs = manager.logs ++ later ∧
          ∀ log ∈ later, log.claimOf = some params.redeemRequestId)
      (by
        rintro next nextParams ⟨same, later, logged, claims⟩ - - -
        refine ⟨same, later ++ [pieceLog nextParams], ?_, ?_⟩
        · rw [afterPiece, logged, List.append_assoc]
        · exact forall_mem_concat claims (congrArg some same))
      (fun _ _ _ holds _ _ _ => holds) ⟨rfl, [], by simp, by simp⟩ returned
  obtain ⟨stored, -, rfl⟩ := saveRedeemRequest_ok saving
  exact ⟨later, logged, claims⟩

/-- A claim that passes the checks of the allowlist is not one of a denied
account. -/
theorem ClaimRun.untouched {E : Type} {river : RiverCalls E}
    {call : ClaimCall} {world worldAfter : E}
    {redeemRequestId withdrawalEventId : Nat}
    (run : ClaimRun river call world manager redeemRequestId
      withdrawalEventId worldAfter after)
    (denied : river.isDenied world account = true) :
    Untouched account manager after := by
  have notOwned : ¬ run.request.OwnedBy account := by
    rintro (same | same)
    · have allowed := run.recipientAllowed
      rw [same, denied] at allowed
      exact Bool.noConfusion allowed
    · have allowed := run.initiatorAllowed
      rw [same, denied] at allowed
      exact Bool.noConfusion allowed
  have otherId : ∀ (id : Nat) (request : RedeemRequest),
      manager.redeemQueue[id]? = some request →
      request.OwnedBy account → redeemRequestId ≠ id := by
    rintro id request found owned rfl
    obtain rfl := Option.some.inj (run.requestFound.symm.trans found)
    exact notOwned owned
  obtain ⟨-, -, -, recipient, -, -, -, -, transfers⟩ :=
    claimRedeemRequest_frame run.claimed
  obtain ⟨later, logged, claims⟩ := claimRedeemRequest_logs run.claimed
  have logs := run.logs_eq
  have paid := run.transfers_eq
  rw [logged, List.append_assoc] at logs
  rw [transfers] at paid
  refine ⟨?_, ⟨_, logs, ?_⟩, _, paid, ?_⟩
  · intro id request found owned
    rw [run.queue_set]
    have kept := otherId id request found owned
    exact (List.getElem?_set_ne kept).trans found
  · intro log member id request found owned same
    have about : log.claimOf = some redeemRequestId := by
      cases List.mem_append.mp member with
      | inl before => exact claims log before
      | inr last =>
          rw [List.mem_singleton.mp last]
          rfl
    rw [about, Option.some.injEq] at same
    exact otherId id request found owned same
  · intro amount member
    have same := List.mem_singleton.mp member
    rw [EthTransfer.claimPayment.injEq] at same
    exact notOwned (.inl (recipient.symm.trans same.1.symm))

/-- A claim call that returns names no request of a denied account, at any
position of its batch. -/
theorem claimAll_names {E : Type} {river : RiverCalls E} {call : ClaimCall}
    (kept : ∀ world recipient amount worldAfter,
      river.call world recipient amount = some worldAfter →
      river.isDenied world account = true →
      river.isDenied worldAfter account = true)
    {pairs : List (Nat × Nat)} {world worldAfter : E}
    {statuses : List ClaimStatus}
    (denied : river.isDenied world account = true)
    (returned : claimAll river call pairs world manager =
      .ok (after, worldAfter, statuses)) :
    ∀ pair ∈ pairs, ∀ request, manager.redeemQueue[pair.1]? = some request →
      ¬ request.OwnedBy account := by
  induction pairs generalizing world manager statuses with
  | nil => simp
  | cons first rest induction =>
      obtain ⟨redeemRequestId, withdrawalEventId⟩ := first
      simp only [claimAll, bind_eq_ok, pure_eq_ok, Prod.mk.injEq,
        Prod.exists] at returned
      obtain ⟨next, nextWorld, status, claiming, final, finalWorld, others,
        remaining, rfl, rfl, rfl⟩ := returned
      intro pair member request found owned
      cases List.mem_cons.mp member with
      | inl same =>
          subst same
          simp only [claimOne, bind_eq_ok, require_eq_ok, fetch_eq_ok]
            at claiming
          obtain ⟨-, -, -, -, stored, storedFound, -, recipientAllowed, -,
            initiatorAllowed, -⟩ := claiming
          obtain rfl := Option.some.inj (storedFound.symm.trans found)
          rcases owned with recipient | initiator
          · rw [recipient, denied] at recipientAllowed
            exact Bool.noConfusion recipientAllowed
          · rw [initiator, denied] at initiatorAllowed
            exact Bool.noConfusion initiatorAllowed
      | inr later =>
          rcases claimOne_ok claiming with ⟨rfl, rfl, -⟩ | ⟨⟨run⟩⟩
          · exact induction denied remaining pair later request found owned
          · have untouched := run.untouched denied
            exact induction (kept _ _ _ _ run.paid denied) remaining pair
              later request
              (untouched.requests pair.1 request found owned) owned

end RedeemManager

namespace System

variable {deployment : Deployment} {account : Address}
  {system middle after : System}

/-- An account the allowlist denies that the protocol pays nothing itself. -/
structure Barred (deployment : Deployment) (account : Address)
    (system : System) : Prop where
  denied : system.allowlist.isDenied account = true
  notCollector : account ≠ system.river.config.collector
  notRiver : account ≠ deployment.river
  notRedeemManager : account ≠ deployment.redeemManager
  notWlseth : account ≠ deployment.wlseth

/-- The account keeps its shares and its requests. -/
structure Unmoved (account : Address) (system after : System) : Prop where
  shares : after.river.sharesPerOwner account =
    system.river.sharesPerOwner account
  wrapped : after.wlseth.balanceOf account = system.wlseth.balanceOf account
  requests : RedeemManager.Untouched account system.redeemManager
    after.redeemManager

theorem Unmoved.refl (account : Address) (system : System) :
    Unmoved account system system :=
  ⟨rfl, rfl, .refl _ _⟩

theorem Unmoved.trans (first : Unmoved account system middle)
    (second : Unmoved account middle after) : Unmoved account system after :=
  ⟨second.shares.trans first.shares, second.wrapped.trans first.wrapped,
    first.requests.trans second.requests⟩

theorem requestRedeemBy_unmoved {sender recipient initiator : Address}
    {lsETHAmount id : Nat}
    (denied : system.allowlist.isDenied account = true)
    (returned : system.requestRedeemBy deployment sender lsETHAmount recipient
      initiator = .ok (after, id)) : Unmoved account system after := by
  obtain ⟨river, manager, transferred, requested, rfl⟩ :=
    requestRedeemBy_ok returned
  exact ⟨River.transferFrom_denied denied transferred, rfl,
    RedeemManager.requestRedeem_untouched requested⟩

theorem requestRedeem_unmoved {sender recipient : Address}
    {lsETHAmount id : Nat} (barred : Barred deployment account system)
    (returned : system.requestRedeem deployment sender lsETHAmount recipient =
      .ok (after, id)) : Unmoved account system after := by
  simp only [System.requestRedeem, Allowlist.onlyAllowed, bind_eq_ok,
    require_eq_ok] at returned
  obtain ⟨-, -, -, ⟨-, senderAllowed, -⟩, -, -, river, moving, requested⟩ :=
    returned
  have moved : river =
      system.river.moved sender deployment.river lsETHAmount :=
    (River.transferShares_ok moving).2
  have config : river.config = system.river.config := by
    rw [moved]
    rfl
  have held : World.allowlist { system.toWorld with river := river } =
      system.allowlist := by
    rw [World.allowlist, config, World.allowlist]
  have unmoved : Unmoved account { system with river := river } after :=
    requestRedeemBy_unmoved (held ▸ barred.denied) requested
  refine ⟨unmoved.shares.trans ?_, unmoved.wrapped, unmoved.requests⟩
  dsimp only
  rw [moved]
  exact River.moved_other
    (River.ne_of_allowed barred.denied senderAllowed) barred.notRiver

theorem riverCalls_allowlist {sender recipient : Address}
    {accepts : Address → Bool} {amount : Nat} {world worldAfter : World}
    (answered : (riverCalls deployment sender accepts).call world recipient
      amount = some worldAfter) : worldAfter.allowlist = world.allowlist := by
  rcases riverCalls_call answered with rfl | ⟨river, deposited, rfl⟩
  · rfl
  · obtain ⟨-, -, river_eq⟩ := River.depositFor_ok deposited
    have config : river.config = world.river.config := by
      rw [river_eq]
      rfl
    rw [World.allowlist, config, World.allowlist]

theorem claimRedeemRequests_unmoved {sender : Address}
    {accepts : Address → Bool} {redeemRequestIds withdrawalEventIds : List Nat}
    {skipAlreadyClaimed : Bool} {depth : Nat} {statuses : List ClaimStatus}
    (denied : system.allowlist.isDenied account = true)
    (returned : system.claimRedeemRequests deployment sender accepts
      redeemRequestIds withdrawalEventIds skipAlreadyClaimed depth =
        .ok (after, statuses)) : Unmoved account system after := by
  have both : after.allowlist = system.allowlist ∧
      Unmoved account system after := by
    refine claimRedeemRequests_induction
      (motive := fun after => after.allowlist = system.allowlist ∧
        Unmoved account system after) ?_ ⟨rfl, .refl _ _⟩ returned
    rintro call before world manager requestId eventId ⟨allowlist, unmoved⟩
      run
    have barred : before.allowlist.isDenied account = true := by
      rw [allowlist]
      exact denied
    have untouched := unmoved.requests.trans (run.untouched barred)
    refine ⟨(riverCalls_allowlist run.paid).trans allowlist, ?_⟩
    cases riverCalls_call run.paid with
    | inl same =>
        rw [same]
        exact ⟨unmoved.shares, unmoved.wrapped, untouched⟩
    | inr deposited =>
        obtain ⟨river, deposited, rfl⟩ := deposited
        have kept := River.depositFor_denied barred deposited
        exact ⟨kept.trans unmoved.shares, unmoved.wrapped, untouched⟩
  exact both.2

theorem Operation.unmoved (barred : Barred deployment account system)
    (operation : Operation deployment system after) :
    Unmoved account system after := by
  have denied := barred.denied
  cases operation with
  | river external returned =>
      exact ⟨River.Call.apply_denied denied returned, rfl, .refl _ _⟩
  | requestRedeem external returned =>
      exact requestRedeem_unmoved barred returned
  | requestRedeemFor external returned =>
      exact requestRedeemBy_unmoved denied (requestRedeemFor_ok returned)
  | requestRedeemSelf external returned =>
      exact requestRedeemBy_unmoved denied (requestRedeemSelf_ok returned)
  | claimRedeemRequests external returned =>
      exact claimRedeemRequests_unmoved denied returned
  | wrap external returned =>
      obtain ⟨wlseth, river, minting, rfl⟩ := wrap_ok returned
      obtain ⟨wrapped, shares⟩ := WLSETH.mint_denied denied minting
      exact ⟨shares, wrapped, .refl _ _⟩
  | unwrap external returned =>
      obtain ⟨wlseth, river, burning, rfl⟩ := unwrap_ok returned
      obtain ⟨wrapped, shares⟩ := WLSETH.burn_denied denied burning
      exact ⟨shares, wrapped, .refl _ _⟩
  | wrapper external returned =>
      exact ⟨rfl, WLSETH.Call.apply_denied denied returned, .refl _ _⟩
  | depositToConsensusLayer external returned =>
      obtain ⟨registry, validators, -, -, -, rfl⟩ :=
        depositToConsensusLayer_moves returned
      exact ⟨rfl, rfl, .refl _ _⟩
  | requestValidatorExits external returned => exact ⟨rfl, rfl, .refl _ _⟩
  | registry external returned => exact ⟨rfl, rfl, .refl _ _⟩
  | allowlist external returned => exact ⟨rfl, rfl, .refl _ _⟩
  | consensusLayerWithdrawal amount => exact ⟨rfl, rfl, .refl _ _⟩

/-- A report mints to the collector and burns from the redeem manager. -/
theorem report_unmoved {funds : ExternalFunds} {timestamp : Nat}
    {sender : Address} {report : ConsensusLayerReport}
    {trace : ReportingTrace} (sound : Sound deployment system)
    (barred : Barred deployment account system)
    (returned : system.setConsensusLayerData deployment funds timestamp
      sender report = .ok (after, trace)) : Unmoved account system after := by
  obtain ⟨run⟩ := setConsensusLayerData_run sound.registry returned
  obtain ⟨max, pulling⟩ := run.pulled
  have pulled : RedeemManager.Untouched account system.redeemManager
      run.prepared.redeemManager :=
    RedeemManager.pullExceedingEth_untouched pulling
  have prepared : Unmoved account system run.prepared := by
    refine ⟨?_, ?_, pulled⟩
    · rw [run.stages.prepared_eq]
      exact credit_of_ne barred.notCollector
    · rw [run.stages.prepared_eq]
      rfl
  have withdrawn : Unmoved account run.prepared run.withdrawn := by
    rcases reportWithdrawToRedeemManager_ok run.withdrawing with
      ⟨same, -⟩ | ⟨amount, eth, withdrawal⟩
    · rw [same]
      exact .refl _ _
    · refine ⟨?_, ?_,
        RedeemManager.reportWithdraw_untouched withdrawal.reported⟩
      · rw [withdrawal.after_eq]
        exact debit_of_ne barred.notRedeemManager
      · rw [withdrawal.after_eq]
  have settled : Unmoved account run.withdrawn after := by
    refine ⟨congrArg (·.river.sharesPerOwner account) run.after_eq,
      congrArg (·.wlseth.balanceOf account) run.after_eq, ?_⟩
    rw [congrArg System.redeemManager run.after_eq]
    exact .refl _ _
  exact (prepared.trans withdrawn).trans settled

theorem claimRedeemRequests_names {sender : Address}
    {accepts : Address → Bool} {redeemRequestIds withdrawalEventIds : List Nat}
    {skipAlreadyClaimed : Bool} {depth : Nat} {statuses : List ClaimStatus}
    (denied : system.allowlist.isDenied account = true)
    (returned : system.claimRedeemRequests deployment sender accepts
      redeemRequestIds withdrawalEventIds skipAlreadyClaimed depth =
        .ok (after, statuses)) :
    ∀ id ∈ redeemRequestIds, ∀ request,
      system.redeemManager.redeemQueue[id]? = some request →
      ¬ request.OwnedBy account := by
  simp only [claimRedeemRequests, RedeemManager.claimRedeemRequests,
    bind_eq_ok, require_eq_ok, pure_eq_ok, Prod.mk.injEq, Prod.exists]
    at returned
  obtain ⟨manager, world, answers, ⟨-, lengths, loop⟩, rfl, -⟩ := returned
  have kept : ∀ world recipient amount worldAfter,
      (riverCalls deployment sender accepts).call world recipient amount =
        some worldAfter → world.allowlist.isDenied account = true →
      worldAfter.allowlist.isDenied account = true := by
    intro world recipient amount worldAfter answered before
    rw [riverCalls_allowlist answered]
    exact before
  have names : ∀ pair ∈ redeemRequestIds.zip withdrawalEventIds, ∀ request,
      system.redeemManager.redeemQueue[pair.1]? = some request →
      ¬ request.OwnedBy account :=
    RedeemManager.claimAll_names kept denied loop
  intro id member request found
  have listed : id ∈ (redeemRequestIds.zip withdrawalEventIds).map
      Prod.fst := by
    rw [List.map_fst_zip (Nat.le_of_eq lengths)]
    exact member
  obtain ⟨pair, paired, rfl⟩ := List.mem_map.mp listed
  exact names pair paired request found

/-- Steps while the account is barred. -/
abbrev BarredRun (deployment : Deployment) (account : Address) :
    System → System → Prop :=
  Relation.ReflTransGen fun system after =>
    Barred deployment account system ∧ Step deployment system after

/-- While an account is denied its shares and its requests stay as they are
over any run, and no claim call that returns names a request of it. -/
theorem denied_account_frozen {reached : System}
    (reachable : Reachable deployment system)
    (run : BarredRun deployment account system reached) :
    Unmoved account system reached ∧
    (reached.allowlist.isDenied account = true →
      ∀ (sender : Address) (accepts : Address → Bool)
        (redeemRequestIds withdrawalEventIds : List Nat)
        (skipAlreadyClaimed : Bool) (depth : Nat) (after : System)
        (statuses : List ClaimStatus),
        reached.claimRedeemRequests deployment sender accepts
          redeemRequestIds withdrawalEventIds skipAlreadyClaimed depth =
            .ok (after, statuses) →
        ∀ id ∈ redeemRequestIds, ∀ request,
          reached.redeemManager.redeemQueue[id]? = some request →
          request.recipient ≠ account ∧ request.initiator ≠ account) := by
  constructor
  · have both : Reachable deployment reached ∧
        Unmoved account system reached := by
      induction run with
      | refl => exact ⟨reachable, .refl _ _⟩
      | tail _ step induction =>
          obtain ⟨barred, step⟩ := step
          obtain ⟨before, unmoved⟩ := induction
          refine ⟨before.tail step, unmoved.trans ?_⟩
          cases step with
          | operation operation => exact operation.unmoved barred
          | report returned =>
              exact report_unmoved (Sound.of_reachable before) barred returned
    exact both.2
  · intro denied sender accepts redeemRequestIds withdrawalEventIds
      skipAlreadyClaimed depth after statuses returned id member request found
    have other := claimRedeemRequests_names denied returned id member request
      found
    exact ⟨fun same => other (.inl same), fun same => other (.inr same)⟩

section Sample

open RedeemManager (alice)
open LibAllowlistMasks (denyMask)

/-- Alice is denied while a part of her request is served. -/
def sampleBarred : Except Error System := do
  let served ← sampleRun
  let allowlist ← (Allowlist.Call.setDenyPermissions [alice]
    [denyMask]).apply (served.allowlists (.ofNat 16)) (.ofNat 10)
  return { served with
    allowlists := Function.update served.allowlists (.ofNat 16) allowlist }

theorem sampleBarred_reachable {system : System}
    (returned : sampleBarred = .ok system) : Reachable sample system := by
  simp only [sampleBarred, bind_eq_ok, pure_eq_ok] at returned
  obtain ⟨served, serving, allowlist, denying, rfl⟩ := returned
  have denier : sample.External (.ofNat 10) := by decide
  exact (sampleRun_reachable serving).tail
    (.operation (.allowlist denier denying))

theorem denied_account_frozen_sample : ∃ system reached trace,
    sampleBarred = .ok system ∧
      system.setConsensusLayerData sample (feesUpTo 1) 1000000 (.ofNat 11)
        (quietReport 675 false) = .ok (reached, trace) ∧
      reached.river.sharesPerOwner alice =
        system.river.sharesPerOwner alice ∧
      ∀ (sender : Address) (after : System) (statuses : List ClaimStatus),
        reached.claimRedeemRequests sample sender (fun _ => true) [0] [0]
          true 1 ≠ .ok (after, statuses) := by
  have checked : returns sampleBarred (fun system =>
      (system.allowlist.isDenied alice = true ∧
        alice ≠ system.river.config.collector) ∧
      returns (system.setConsensusLayerData sample (feesUpTo 1) 1000000
        (.ofNat 11) (quietReport 675 false)) fun result =>
          result.1.allowlist.isDenied alice = true ∧
            result.1.redeemManager.redeemQueue.map RedeemRequest.recipient =
              [alice]) = true := by
    decide +kernel
  obtain ⟨system, returned, facts⟩ := returns_iff.mp checked
  obtain ⟨⟨denied, notCollector⟩, reporting⟩ := of_decide_eq_true facts
  obtain ⟨⟨reached, trace⟩, reported, facts⟩ := returns_iff.mp reporting
  obtain ⟨stillDenied, recipients⟩ := of_decide_eq_true facts
  have barred : Barred sample alice system :=
    ⟨denied, notCollector, by decide, by decide, by decide⟩
  obtain ⟨unmoved, refused⟩ := denied_account_frozen
    (sampleBarred_reachable returned)
    (.single ⟨barred, .report reported⟩)
  refine ⟨system, reached, trace, returned, reported, unmoved.shares, ?_⟩
  intro sender after statuses claimed
  obtain ⟨request, rest, queue, recipient, -⟩ :=
    List.map_eq_cons_iff.mp recipients
  have found : reached.redeemManager.redeemQueue[0]? = some request := by
    rw [queue]
    rfl
  obtain ⟨other, -⟩ := refused stillDenied sender (fun _ => true) [0] [0] true
    1 after statuses claimed 0 List.mem_cons_self request found
  exact other recipient

end Sample

end System

end RiverProtocol
