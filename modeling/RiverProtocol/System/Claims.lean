import RiverProtocol.RedeemManager.Claimable
import RiverProtocol.System.ExchangeRate

/-!
# Claims after any run

A report that sends ether for no shares pushes an event of amount 0, on which
every later claim that reaches it divides by zero.  Where no report does so,
every resolved request can be claimed.
-/

namespace RiverProtocol

open Checked Outcome

open RedeemManager (Payable alice)

open Rate (Pool)

namespace System

variable {deployment : Deployment} {system after : System}

/-- The redeem balance is empty, covers the demand, or buys a share. -/
def BuysShares (prepared : System) : Prop :=
  0 < prepared.river.balanceToRedeem →
    prepared.river.balanceToRedeem <
      prepared.river.pool.worth prepared.redeemManager.redeemDemand →
    prepared.river.assets ≤
      prepared.river.balanceToRedeem * prepared.river.shares

instance (prepared : System) : Decidable prepared.BuysShares :=
  inferInstanceAs (Decidable (_ → _))

theorem Withdrawal.amount_ne_zero_iff {amount eth : Nat}
    (withdrawal : Withdrawal deployment system amount eth after) :
    amount ≠ 0 ↔ system.BuysShares := by
  have positive := withdrawal.eth_pos
  rcases suppliedDemand_ok withdrawal.supplied with
    ⟨enough, rfl, rfl⟩ | ⟨limited, rfl, rfl⟩
  · constructor
    · intro _ _ limited
      exact absurd enough (Nat.not_le.mpr limited)
    · intro _ none
      rw [Pool.worth, none, Nat.zero_mul, Nat.zero_div] at positive
      exact Nat.lt_irrefl _ positive
  · rw [Pool.sharesOf_ne_zero_iff withdrawal.assets_pos]
    constructor
    · intro bought _ _
      exact bought
    · intro buys
      exact buys positive limited

theorem balanceToRedeem_le_assets (river : River) :
    river.balanceToRedeem ≤ river.assets := by
  unfold River.assets
  exact (Nat.le_add_left _ _).trans (Nat.le_add_right _ _)

/-- The product a claim computes from an event was computed by the report. -/
theorem Withdrawal.product_lt {amount eth : Nat}
    (withdrawal : Withdrawal deployment system amount eth after) :
    amount * eth < wordLimit := by
  have supplied := withdrawal.supplied
  simp only [suppliedDemand, bind_eq_ok] at supplied
  obtain ⟨inEth, valued, supplied⟩ := supplied
  obtain ⟨rfl, valueFits⟩ := River.balanceFromShares_ok valued
  split at supplied
  · simp only [bind_eq_ok, pure_eq_ok, Prod.mk.injEq] at supplied
    obtain ⟨bought, converted, rfl, rfl⟩ := supplied
    obtain ⟨rfl, sharesFit⟩ := River.sharesFromBalance_ok converted
    calc
      system.river.pool.sharesOf system.river.balanceToRedeem *
            system.river.balanceToRedeem ≤
          system.river.shares * system.river.balanceToRedeem :=
        Nat.mul_le_mul_right _
          (Pool.sharesOf_le_shares (balanceToRedeem_le_assets _))
      _ = system.river.balanceToRedeem * system.river.shares :=
        Nat.mul_comm _ _
      _ < wordLimit := sharesFit withdrawal.assets_pos.ne'
  · simp only [pure_eq_ok, Prod.mk.injEq] at supplied
    obtain ⟨rfl, rfl⟩ := supplied
    calc
      system.redeemManager.redeemDemand *
            system.river.pool.worth system.redeemManager.redeemDemand ≤
          system.redeemManager.redeemDemand * system.river.assets :=
        Nat.mul_le_mul_left _ (Pool.worth_le_assets withdrawal.minted)
      _ < wordLimit := valueFits withdrawal.shares_pos.ne'

theorem Withdrawal.payable {amount eth : Nat}
    (withdrawal : Withdrawal deployment system amount eth after)
    (payable : Payable system.redeemManager) (buys : system.BuysShares) :
    Payable after.redeemManager := by
  obtain ⟨-, fits, height, -, manager⟩ :=
    RedeemManager.reportWithdraw_ok withdrawal.reported
  rw [manager]
  exact payable.of_event rfl rfl fits
    ⟨withdrawal.amount_ne_zero_iff.mpr buys, withdrawal.product_lt⟩

theorem payable_of_report {funds : ExternalFunds} {timestamp : Nat}
    {sender : Address} {report : ConsensusLayerReport}
    {trace : ReportingTrace} (sound : Sound deployment system)
    (payable : Payable system.redeemManager)
    (returned : system.setConsensusLayerData deployment funds timestamp
      sender report = .ok (after, trace))
    (buys : ∀ prepared increase,
      system.prepareReport funds timestamp sender report =
        .ok (prepared, increase, trace) → prepared.BuysShares) :
    Payable after.redeemManager := by
  obtain ⟨run⟩ := setConsensusLayerData_run sound.registry returned
  obtain ⟨max, pulling⟩ := run.pulled
  have pulled := payable.of_pull pulling
  rw [run.after_eq]
  rcases reportWithdrawToRedeemManager_ok run.withdrawing with
    ⟨same, -⟩ | ⟨amount, eth, withdrawal⟩
  · rw [same]
    exact pulled
  · exact withdrawal.payable pulled (buys _ _ run.preparing)

/-- The maximum of a request is the worth of at most all shares. -/
theorem payable_of_requestRedeemBy {sender recipient initiator : Address}
    {lsETHAmount id : Nat}
    (sound : system.river.Sound deployment.redeemManager)
    (payable : Payable system.redeemManager)
    (returned : system.requestRedeemBy deployment sender lsETHAmount recipient
      initiator = .ok (after, id)) : Payable after.redeemManager := by
  obtain ⟨river, manager, transferred, requested, rfl⟩ :=
    requestRedeemBy_ok returned
  obtain ⟨-, nonzero, -, -, height, maximum, -, valued, demandFits, rfl⟩ :=
    RedeemManager.requestRedeem_eq_ok.mp requested
  obtain ⟨-, -, funds, changed⟩ := River.transferFrom_ok transferred
  have shares : river.shares = system.river.shares := by
    rcases changed with rfl | rfl <;> rfl
  have owned : lsETHAmount ≤ river.shares :=
    shares ▸ funds.trans (sound.owned_le sender)
  have supplied : river.shares ≠ 0 := by omega
  obtain ⟨rfl, fits⟩ := River.balanceFromShares_ok valued
  refine payable.of_request rfl rfl rfl
    ⟨(Nat.le_add_left _ _).trans_lt demandFits, ?_⟩
  calc
    lsETHAmount * river.pool.worth lsETHAmount ≤
        lsETHAmount * river.assets :=
      Nat.mul_le_mul_left _ (Pool.worth_le_assets owned)
    _ < wordLimit := fits supplied

theorem payable_of_operation (sound : Sound deployment system)
    (payable : Payable system.redeemManager)
    (operation : Operation deployment system after) :
    Payable after.redeemManager := by
  cases operation.redeemUse sound with
  | unused same =>
      rw [same]
      exact payable
  | request held same requested =>
      rw [← same] at payable
      exact payable_of_requestRedeemBy held payable requested
  | claim claimed => exact payable.of_claimRedeemRequests claimed

/-- A successful call that is no report sending ether for no shares. -/
inductive PayingStep (deployment : Deployment) : System → System → Prop where
  | operation {system after : System} :
      Operation deployment system after → PayingStep deployment system after
  | report {system after : System} {funds : ExternalFunds} {timestamp : Nat}
      {sender : Address} {report : ConsensusLayerReport}
      {trace : ReportingTrace} :
      system.setConsensusLayerData deployment funds timestamp sender report =
        .ok (after, trace) →
      (∀ prepared increase,
        system.prepareReport funds timestamp sender report =
          .ok (prepared, increase, trace) → prepared.BuysShares) →
      PayingStep deployment system after

theorem PayingStep.step (paying : PayingStep deployment system after) :
    Step deployment system after := by
  cases paying with
  | operation operation => exact .operation operation
  | report returned buys => exact .report returned

/-- States a fresh deployment reaches by such calls. -/
def PayingReachable (deployment : Deployment) (system : System) : Prop :=
  Relation.ReflTransGen (PayingStep deployment) (fresh deployment) system

theorem PayingReachable.reachable
    (paying : PayingReachable deployment system) :
    Reachable deployment system :=
  Relation.ReflTransGen.mono (fun _ _ => PayingStep.step) _ _ paying

theorem payable_of_step (sound : Sound deployment system)
    (payable : Payable system.redeemManager)
    (step : PayingStep deployment system after) :
    Payable after.redeemManager := by
  cases step with
  | operation operation => exact payable_of_operation sound payable operation
  | report returned buys => exact payable_of_report sound payable returned buys

theorem payable_of_run (paying : PayingReachable deployment system) :
    Payable system.redeemManager := by
  induction paying with
  | refl => exact Payable.fresh
  | tail run step induction =>
      have sound := Sound.of_reachable (PayingReachable.reachable run)
      exact payable_of_step sound induction step

/-- Where every report buys shares for the ether it sends, a request that
resolves to an event can be claimed at every depth. -/
theorem resolved_requests_claimable
    (paying : PayingReachable deployment system)
    (fewRequests : system.redeemManager.redeemQueue.length < uint32Limit)
    (fewEvents : system.redeemManager.withdrawalStack.length < uint32Limit)
    {gas redeemRequestId depth : Nat} {answer : Int} {sender : Address}
    {accepts : Address → Bool} {request : RedeemRequest}
    {skipAlreadyClaimed : Bool}
    (resolving : system.redeemManager.resolveRedeemRequests gas
      [redeemRequestId] = .ok [answer]) (resolved : 0 ≤ answer)
    (requestFound : system.redeemManager.redeemQueue[redeemRequestId]? =
      some request)
    (recipientAllowed : system.allowlist.isDenied request.recipient = false)
    (initiatorAllowed : system.allowlist.isDenied request.initiator = false)
    (acceptsEth : ∀ amount, ∃ world,
      (riverCalls deployment sender accepts).call system.toWorld
        request.recipient amount = some world) :
    ∃ after statuses,
      system.claimRedeemRequests deployment sender accepts [redeemRequestId]
        [answer.toNat] skipAlreadyClaimed depth = .ok (after, statuses) := by
  have managerReachable := redeemManager_reachable paying.reachable
  have geometry := RedeemManager.Geometry.of_reachable managerReachable
  obtain ⟨found, event, resolution⟩ :=
    RedeemManager.resolveRedeemRequests_ok geometry resolving resolved
  obtain rfl : found = request := by
    simpa [resolution.requestFound] using requestFound
  obtain ⟨manager, world, statuses, claimed⟩ : ∃ manager world statuses,
      RedeemManager.claimRedeemRequests
        (riverCalls deployment sender accepts) system.toWorld
        system.redeemManager [redeemRequestId] [answer.toNat]
        skipAlreadyClaimed depth = .ok (manager, world, statuses) :=
    RedeemManager.claimRedeemRequests_of_resolved
      (RedeemManager.Solvent.of_reachable managerReachable) geometry
      (payable_of_run paying) fewRequests fewEvents resolution
      recipientAllowed initiatorAllowed acceptsEth
  simp only [System.claimRedeemRequests, claimed, ok_bind]
  exact ⟨_, statuses, rfl⟩

theorem buysShares_of_returns
    {run : Except Error (System × River.ReportIncrease × ReportingTrace)}
    (checked : returns run (fun prepared => prepared.1.BuysShares) = true)
    {prepared : System} {increase : River.ReportIncrease}
    {trace : ReportingTrace}
    (returned : run = .ok (prepared, increase, trace)) :
    prepared.BuysShares := by
  obtain ⟨found, same, buys⟩ := returns_iff.mp checked
  rw [returned] at same
  cases same
  exact of_decide_eq_true buys

theorem sampleRun_paying {system : System}
    (returned : sampleRun = .ok system) : PayingReachable sample system := by
  have firstBuys : returns sampleRequested (fun requested =>
      returns (requested.prepareReport (feesUpTo 0) 1000000 (.ofNat 11)
        (quietReport 225 false)) fun prepared => prepared.1.BuysShares) =
        true := by
    decide +kernel
  have secondBuys : returns sampleCommitted (fun committed =>
      returns (committed.prepareReport (feesUpTo 0) 1000000 (.ofNat 11)
        (quietReport 450 true)) fun prepared => prepared.1.BuysShares) =
        true := by
    decide +kernel
  simp only [sampleRun, bind_eq_ok, pure_eq_ok, Prod.exists] at returned
  obtain ⟨committed, committing, served, trace, second, rfl⟩ := returned
  obtain ⟨_, sameCommitted, secondChecked⟩ := returns_iff.mp secondBuys
  rw [committing] at sameCommitted
  cases sameCommitted
  simp only [sampleCommitted, bind_eq_ok, pure_eq_ok, Prod.exists]
    at committing
  obtain ⟨requested, requesting, middle, firstTrace, first, rfl⟩ := committing
  obtain ⟨_, sameRequested, firstChecked⟩ := returns_iff.mp firstBuys
  rw [requesting] at sameRequested
  cases sameRequested
  have afterRequest : PayingReachable sample requested :=
    Relation.ReflTransGen.mono (fun _ _ => .operation) _ _
      (sampleRequested_run requesting)
  refine (afterRequest.tail (.report first ?_)).tail (.report second ?_)
  · intro prepared increase preparing
    exact buysShares_of_returns firstChecked preparing
  · intro prepared increase preparing
    exact buysShares_of_returns secondChecked preparing

theorem riverCalls_accepts {sender recipient : Address}
    {accepts : Address → Bool} (external : deployment.External recipient)
    (accepted : accepts recipient = true) (world : World) (amount : Nat) :
    ∃ worldAfter, (riverCalls deployment sender accepts).call world recipient
      amount = some worldAfter := by
  have notRiver : recipient ≠ deployment.river := by
    rintro rfl
    exact external (List.mem_cons_self ..)
  simp only [riverCalls, if_neg notRiver]
  rw [if_neg external, if_pos accepted]
  exact ⟨world, rfl⟩

/-- Alice's request resolves to the first event. -/
def aliceResolved (system : System) : Bool :=
  returns (system.redeemManager.resolveRedeemRequests 0 [0])
      (fun answers => answers = [0]) &&
    (system.redeemManager.redeemQueue[0]?).any fun request =>
      request.recipient = alice ∧ request.initiator = alice ∧
        system.allowlist.isDenied alice = false

theorem aliceResolved_iff : aliceResolved system = true ↔
    system.redeemManager.resolveRedeemRequests 0 [0] = .ok [0] ∧
      ∃ request, system.redeemManager.redeemQueue[0]? = some request ∧
        request.recipient = alice ∧ request.initiator = alice ∧
        system.allowlist.isDenied alice = false := by
  simp only [aliceResolved, Bool.and_eq_true, returns_iff, Option.any_eq_true,
    decide_eq_true_eq, exists_eq_right]

theorem alice_accepts (world : World) (amount : Nat) : ∃ worldAfter,
    (riverCalls sample alice fun _ => true).call world alice amount =
      some worldAfter :=
  riverCalls_accepts (by decide) rfl world amount

theorem resolved_requests_claimable_sample :
    ∃ system after statuses, sampleRun = .ok system ∧
      system.claimRedeemRequests sample alice (fun _ => true) [0] [0] true 1 =
        .ok (after, statuses) := by
  have checked : returns sampleRun (fun system => aliceResolved system &&
      decide (system.redeemManager.redeemQueue.length = 1 ∧
        system.redeemManager.withdrawalStack.length = 1)) = true := by
    decide +kernel
  obtain ⟨system, returned, facts⟩ := returns_iff.mp checked
  obtain ⟨alices, few⟩ := Bool.and_eq_true_iff.mp facts
  obtain ⟨resolving, request, requestFound, recipient, initiator, allowed⟩ :=
    aliceResolved_iff.mp alices
  obtain ⟨fewRequests, fewEvents⟩ := of_decide_eq_true few
  have one : 1 < uint32Limit := by decide
  obtain ⟨after, statuses, claimed⟩ : ∃ after statuses,
      system.claimRedeemRequests sample alice (fun _ => true) [0]
        [(0 : Int).toNat] true 1 = .ok (after, statuses) :=
    resolved_requests_claimable (sampleRun_paying returned)
      (fewRequests ▸ one) (fewEvents ▸ one) resolving (by decide) requestFound
      (recipient ▸ allowed) (initiator ▸ allowed)
      (recipient ▸ alice_accepts system.toWorld)
  exact ⟨system, after, statuses, returned, claimed⟩

/-- One report after the sample run sends one wei for no shares; alice's
claim then divides by the amount 0 of its event. -/
theorem claim_divides_by_zero :
    ∃ system, Reachable sample system ∧ aliceResolved system = true ∧
      system.claimRedeemRequests sample alice (fun _ => true) [0] [0] true 1 =
        .error (.panic .divisionByZero) := by
  have checked : returns sampleRun (fun system =>
      returns (system.setConsensusLayerData sample (feesUpTo 1) 1000000
        (.ofNat 11) (quietReport 675 true)) fun reported =>
          aliceResolved reported.1 &&
            fails (reported.1.claimRedeemRequests sample alice
              (fun _ => true) [0] [0] true 1)
              (.panic .divisionByZero)) = true := by
    decide +kernel
  obtain ⟨system, returned, facts⟩ := returns_iff.mp checked
  obtain ⟨⟨reported, trace⟩, reporting, facts⟩ := returns_iff.mp facts
  obtain ⟨alices, failing⟩ := Bool.and_eq_true_iff.mp facts
  exact ⟨reported, (sampleRun_reachable returned).tail (.report reporting),
    alices, fails_iff.mp failing⟩

/-- After some runs a resolved request cannot be claimed. -/
theorem resolved_request_not_claimable :
    ¬ ∀ (deployment : Deployment) (system : System)
      (gas redeemRequestId depth : Nat) (answer : Int) (sender : Address)
      (accepts : Address → Bool) (request : RedeemRequest)
      (skipAlreadyClaimed : Bool), Reachable deployment system →
      system.redeemManager.resolveRedeemRequests gas [redeemRequestId] =
        .ok [answer] → 0 ≤ answer →
      system.redeemManager.redeemQueue[redeemRequestId]? = some request →
      system.allowlist.isDenied request.recipient = false →
      system.allowlist.isDenied request.initiator = false →
      (∀ amount, ∃ world, (riverCalls deployment sender accepts).call
        system.toWorld request.recipient amount = some world) →
      ∃ after statuses,
        system.claimRedeemRequests deployment sender accepts
          [redeemRequestId] [answer.toNat] skipAlreadyClaimed depth =
            .ok (after, statuses) := by
  intro claimable
  obtain ⟨system, reachable, alices, failing⟩ := claim_divides_by_zero
  obtain ⟨resolving, request, requestFound, recipient, initiator, allowed⟩ :=
    aliceResolved_iff.mp alices
  obtain ⟨after, statuses, claimed⟩ := claimable sample system 0 0 1 0 alice
    (fun _ => true) request true reachable resolving (by decide) requestFound
    (recipient ▸ allowed) (initiator ▸ allowed)
    (recipient ▸ alice_accepts system.toWorld)
  have differ := claimed.symm.trans failing
  contradiction

end System

end RiverProtocol
