import RiverProtocol.System.Books
import RiverProtocol.System.Standing

/-!
# The two paths of a redeem request

A request through River moves the LsETH to River and from there, with River's
own approval, to the redeem manager.  A request at the redeem manager moves it
at once, with the approval of the sender.  Both come to one change of the
system, up to that approval.
-/

namespace RiverProtocol

open Checked Outcome Balances LibAllowlistMasks

open RedeemManager (alice)

namespace River

variable {river : River} {sender owner middle recipient : Address}
  {value : Nat}

/-- The approval of a spender after it spent a value. -/
def spent (river : River) (owner spender : Address) (value : Nat) : River :=
  if river.approvals owner spender = maxUint256 then river
  else river.setApproval owner spender (river.approvals owner spender - value)

theorem spendAllowance_of_le {spender : Address}
    (allowance : value ≤ river.approvals owner spender)
    (owned : owner ≠ .zero) (named : spender ≠ .zero) :
    river.spendAllowance spender owner value =
      .ok (river.spent owner spender value) := by
  rw [spendAllowance, require_of allowance, ok_bind, spent]
  by_cases standing : river.approvals owner spender = maxUint256
  · rw [if_pos standing, if_neg (not_not_intro standing)]
    rfl
  · rw [if_neg standing, if_pos standing, approveFor, notZeroAddress,
      notZeroAddress, require_of owned, ok_bind, require_of named, ok_bind]
    rfl

theorem spent_same {spender : Address} :
    (river.spent owner spender value).shares = river.shares ∧
      (river.spent owner spender value).sharesPerOwner =
        river.sharesPerOwner := by
  unfold spent
  split <;> exact ⟨rfl, rfl⟩

theorem moved_moved : (river.moved sender middle value).moved middle recipient
    value = river.moved sender recipient value := by
  simp only [moved, move, credit, debit, Function.update_self,
    Function.update_idem, Nat.add_sub_cancel, Function.update_eq_self]

theorem transferFrom_of_le {allowlist : Allowlist}
    (ownerAllowed : allowlist.isDenied owner = false)
    (recipientAllowed : allowlist.isDenied recipient = false)
    (positive : value ≠ 0) (funds : value ≤ river.sharesPerOwner owner)
    (named : recipient ≠ .zero)
    (allowance : value ≤ river.approvals owner sender)
    (owned : owner ≠ .zero) (called : sender ≠ .zero)
    (fits : river.totalShares < wordLimit) :
    river.transferFrom allowlist sender owner recipient value =
      .ok ((river.spent owner sender value).moved owner recipient value) := by
  obtain ⟨-, same⟩ : (river.spent owner sender value).shares = river.shares ∧
      (river.spent owner sender value).sharesPerOwner =
        river.sharesPerOwner := spent_same
  rw [transferFrom, onTransfer, require_of ownerAllowed, ok_bind,
    require_of recipientAllowed, ok_bind, require_of positive, ok_bind,
    require_of funds, ok_bind, require_of named, ok_bind,
    spendAllowance_of_le allowance owned called, ok_bind]
  apply transferShares_of_le
  · rw [same]
    exact funds
  · rw [totalShares, same]
    exact fits

theorem balanceFromShares_spent {spender : Address} {amount : Nat} :
    ((river.spent owner spender value).moved sender recipient
      value).balanceFromShares amount = river.balanceFromShares amount := by
  unfold spent
  split <;> rfl

end River

namespace System

variable {deployment : Deployment} {system after : System}
  {user recipient : Address} {amount id : Nat}

/-- The redeem manager with the entry of a request. -/
structure Pushed (system : System) (amount : Nat)
    (recipient initiator : Address) (id : Nat)
    (redeemManager : RedeemManager) : Prop where
  named : recipient ≠ .zero
  positive : amount ≠ 0
  numbered : id = toUint32 system.redeemManager.redeemQueue.length
  entry : ∃ height maxRedeemableEth,
    RedeemManager.nextHeight
      (system.redeemManager.redeemQueue.map RedeemRequest.position) id =
        .ok height ∧
    system.river.balanceFromShares amount = .ok maxRedeemableEth ∧
    system.redeemManager.redeemDemand + amount < wordLimit ∧
    redeemManager = { system.redeemManager with
      redeemQueue := system.redeemManager.redeemQueue ++
        [{ height := height, amount := amount, recipient := recipient,
           initiator := initiator, maxRedeemableEth := maxRedeemableEth }]
      redeemDemand := system.redeemManager.redeemDemand + amount
      logs := system.redeemManager.logs ++
        [.setRedeemDemand system.redeemManager.redeemDemand
          (system.redeemManager.redeemDemand + amount)] ++
        [.requestedRedeem recipient height amount maxRedeemableEth id] }

theorem Pushed.unique {initiator : Address} {otherId : Nat}
    {redeemManager other : RedeemManager}
    (pushed : Pushed system amount recipient initiator id redeemManager)
    (another : Pushed system amount recipient initiator otherId other) :
    id = otherId ∧ redeemManager = other := by
  obtain rfl : id = otherId := pushed.numbered.trans another.numbered.symm
  obtain ⟨height, maximum, heightRead, maximumRead, -, rfl⟩ := pushed.entry
  obtain ⟨sameHeight, sameMaximum, heightAgain, maximumAgain, -, rfl⟩ :=
    another.entry
  obtain rfl := Except.ok.inj (heightRead.symm.trans heightAgain)
  obtain rfl := Except.ok.inj (maximumRead.symm.trans maximumAgain)
  exact ⟨rfl, rfl⟩

/-- The internal request, where the transfer it makes is known. -/
theorem requestRedeemBy_iff {sender initiator : Address} {river : River}
    (transferred : amount ≠ 0 → system.river.transferFrom system.allowlist
      deployment.redeemManager sender deployment.redeemManager amount =
        .ok river)
    (valued : river.balanceFromShares amount =
      system.river.balanceFromShares amount) :
    system.requestRedeemBy deployment sender amount recipient initiator =
        .ok (after, id) ↔
      ∃ redeemManager,
        Pushed system amount recipient initiator id redeemManager ∧
        after = { system with
          river := river, redeemManager := redeemManager } := by
  simp only [requestRedeemBy, bind_eq_ok, pure_eq_ok, Prod.mk.injEq,
    Prod.exists, RedeemManager.requestRedeem_eq_ok]
  constructor
  · rintro ⟨redeemManager, world, number, ⟨named, positive, numbered,
      transfer, height, maximum, heightRead, maximumRead, fits, rfl⟩, rfl, rfl⟩
    simp only [riverCalls, bind_eq_ok, pure_eq_ok, Prod.mk.injEq, true_and,
      transferred positive, Except.ok.injEq, exists_eq_left'] at transfer
    subst transfer
    exact ⟨_, ⟨named, positive, numbered, height, maximum, heightRead,
      valued.symm.trans maximumRead, fits, rfl⟩, rfl⟩
  · rintro ⟨redeemManager, ⟨named, positive, numbered, height, maximum,
      heightRead, maximumRead, fits, rfl⟩, rfl⟩
    refine ⟨_, { system.toWorld with river := river }, id, ⟨named, positive,
      numbered, ?_, height, maximum, heightRead, valued.trans maximumRead,
      fits, rfl⟩, rfl, rfl⟩
    simp only [riverCalls, transferred positive, ok_bind]
    rfl

theorem requestRedeemBy_funds {sender initiator : Address}
    (returned : system.requestRedeemBy deployment sender amount recipient
      initiator = .ok (after, id)) :
    amount ≤ system.river.sharesPerOwner sender := by
  obtain ⟨river, redeemManager, transferred, -, -⟩ :=
    requestRedeemBy_ok returned
  exact (River.transferFrom_ok transferred).2.2.1

/-- A request that is let through, and the entry it adds. -/
structure Requested (system : System) (user : Address) (amount : Nat)
    (recipient : Address) (id : Nat) (redeemManager : RedeemManager) :
    Prop where
  outside : system.river.slashingContainmentMode = false
  allowed : system.allowlist.onlyAllowed user redeemMask = .ok ()
  recipientAllowed : system.allowlist.isDenied recipient = false
  funds : amount ≤ system.river.sharesPerOwner user
  pushed : Pushed system amount recipient user id redeemManager

section Paths

variable (standing : Standing deployment system)
  (fits : system.river.totalShares < wordLimit)
  (managerAllowed :
    system.allowlist.isDenied deployment.redeemManager = false)

include standing fits managerAllowed

/-- River's approval of the redeem manager is not consumed. -/
theorem transferFrom_river (riverAllowed :
      system.allowlist.isDenied deployment.river = false)
    (positive : amount ≠ 0)
    (funds : amount ≤ system.river.sharesPerOwner user) :
    (system.river.moved user deployment.river amount).transferFrom
        system.allowlist deployment.redeemManager deployment.river
        deployment.redeemManager amount =
      .ok (system.river.moved user deployment.redeemManager amount) := by
  have unspent : (system.river.moved user deployment.river amount).spent
      deployment.river deployment.redeemManager amount =
        system.river.moved user deployment.river amount :=
    if_pos standing.river.approved.redeem
  have owned := (le_total system.river.sharesPerOwner user).trans_lt fits
  have funded : amount ≤ move system.river.sharesPerOwner user
      deployment.river amount deployment.river := by
    rw [move, credit_self]
    exact Nat.le_add_left _ _
  have same : (system.river.moved user deployment.river amount).totalShares =
      system.river.totalShares := total_move funds
  rw [River.transferFrom_of_le riverAllowed managerAllowed positive funded
    Deployment.redeemManager_ne_zero ?_ Deployment.river_ne_zero
    Deployment.redeemManager_ne_zero
    (same.trans_lt fits), unspent, River.moved_moved]
  have standing : (system.river.moved user deployment.river amount).approvals
      deployment.river deployment.redeemManager = maxUint256 :=
    standing.river.approved.redeem
  rw [standing, maxUint256]
  omega

theorem requestRedeemBy_river
    (riverAllowed : system.allowlist.isDenied deployment.river = false)
    (funds : amount ≤ system.river.sharesPerOwner user) :
    ({ system with
        river := system.river.moved user deployment.river amount } :
          System).requestRedeemBy deployment deployment.river amount recipient
            user = .ok (after, id) ↔
      ∃ redeemManager,
        Pushed system amount recipient user id redeemManager ∧
        after = { system with
          river := system.river.moved user deployment.redeemManager amount
          redeemManager := redeemManager } := by
  refine (requestRedeemBy_iff (fun positive => transferFrom_river standing
    fits managerAllowed riverAllowed positive funds) ?_).trans ?_
  · rfl
  · constructor
    · rintro ⟨redeemManager, pushed, after_eq⟩
      exact ⟨redeemManager, ⟨pushed.named, pushed.positive, pushed.numbered,
        pushed.entry⟩, after_eq⟩
    · rintro ⟨redeemManager, pushed, after_eq⟩
      exact ⟨redeemManager, ⟨pushed.named, pushed.positive, pushed.numbered,
        pushed.entry⟩, after_eq⟩

/-- Through River. -/
theorem requestRedeem_iff
    (riverAllowed : system.allowlist.isDenied deployment.river = false) :
    system.requestRedeem deployment user amount recipient =
        .ok (after, id) ↔
      ∃ redeemManager,
        Requested system user amount recipient id redeemManager ∧
        after = { system with
          river := system.river.moved user deployment.redeemManager amount
          redeemManager := redeemManager } := by
  simp only [requestRedeem, bind_eq_ok, require_eq_ok]
  constructor
  · rintro ⟨_, outside, _, allowed, _, recipientAllowed, river, moving,
      returned⟩
    obtain ⟨funds, rfl⟩ := River.transferShares_ok moving
    obtain ⟨redeemManager, pushed, after_eq⟩ := (requestRedeemBy_river
      standing fits managerAllowed riverAllowed funds).mp returned
    exact ⟨redeemManager, ⟨outside, allowed, recipientAllowed, funds, pushed⟩,
      after_eq⟩
  · rintro ⟨redeemManager, ⟨outside, allowed, recipientAllowed, funds,
      pushed⟩, after_eq⟩
    exact ⟨(), outside, (), allowed, (), recipientAllowed, _,
      River.transferShares_of_le funds fits, (requestRedeemBy_river standing
        fits managerAllowed riverAllowed funds).mpr
          ⟨redeemManager, pushed, after_eq⟩⟩

theorem transferFrom_user (allowance :
      amount ≤ system.river.approvals user deployment.redeemManager)
    (allowed : system.allowlist.onlyAllowed user redeemMask = .ok ())
    (funds : amount ≤ system.river.sharesPerOwner user)
    (positive : amount ≠ 0) :
    system.river.transferFrom system.allowlist deployment.redeemManager user
        deployment.redeemManager amount =
      .ok ((system.river.spent user deployment.redeemManager amount).moved
        user deployment.redeemManager amount) := by
  simp only [Allowlist.onlyAllowed, bind_eq_ok, require_eq_ok] at allowed
  obtain ⟨-, notDenied, -⟩ := allowed
  refine River.transferFrom_of_le notDenied managerAllowed positive funds
    Deployment.redeemManager_ne_zero allowance ?_
    Deployment.redeemManager_ne_zero fits
  rintro rfl
  have none := standing.river.approved.ownerless deployment.redeemManager
  omega

/-- At the redeem manager. -/
theorem requestRedeemFor_iff (allowance :
      amount ≤ system.river.approvals user deployment.redeemManager) :
    system.requestRedeemFor deployment user amount recipient =
        .ok (after, id) ↔
      ∃ redeemManager,
        Requested system user amount recipient id redeemManager ∧
        after = { system with
          river := (system.river.spent user deployment.redeemManager
            amount).moved user deployment.redeemManager amount
          redeemManager := redeemManager } := by
  have transferred := fun allowed funds =>
    transferFrom_user standing fits managerAllowed allowance allowed funds
  simp only [requestRedeemFor, bind_eq_ok, require_eq_ok]
  constructor
  · rintro ⟨_, outside, _, allowed, _, recipientAllowed, returned⟩
    have funds := requestRedeemBy_funds returned
    obtain ⟨redeemManager, pushed, after_eq⟩ := (requestRedeemBy_iff
      (transferred allowed funds) River.balanceFromShares_spent).mp returned
    exact ⟨redeemManager, ⟨outside, allowed, recipientAllowed, funds, pushed⟩,
      after_eq⟩
  · rintro ⟨redeemManager, ⟨outside, allowed, recipientAllowed, funds,
      pushed⟩, after_eq⟩
    exact ⟨(), outside, (), allowed, (), recipientAllowed,
      (requestRedeemBy_iff (transferred allowed funds)
        River.balanceFromShares_spent).mpr ⟨redeemManager, pushed, after_eq⟩⟩

end Paths

/-- The system with other approvals on River. -/
def withApprovals (system : System)
    (approvals : Address → Address → Nat) : System :=
  { system with river := { system.river with approvals := approvals } }

/-- With an approval of the redeem manager for the amount, a request through
River and one at the redeem manager succeed together, with one id, one entry
and one resulting system, up to the approvals. -/
theorem redeem_paths_agree (reachable : Reachable deployment system)
    (user recipient : Address) (amount : Nat)
    (allowance :
      amount ≤ system.river.approvals user deployment.redeemManager)
    (riverAllowed : system.allowlist.isDenied deployment.river = false)
    (managerAllowed :
      system.allowlist.isDenied deployment.redeemManager = false) :
    ((∃ result, system.requestRedeem deployment user amount recipient =
        .ok result) ↔
      ∃ result, system.requestRedeemFor deployment user amount recipient =
        .ok result) ∧
    ∀ after id other otherId,
      system.requestRedeem deployment user amount recipient =
        .ok (after, id) →
      system.requestRedeemFor deployment user amount recipient =
        .ok (other, otherId) →
      id = otherId ∧
      after.river.sharesPerOwner = other.river.sharesPerOwner ∧
      after.redeemManager = other.redeemManager ∧
      after.redeemManager.redeemDemand =
        system.redeemManager.redeemDemand + amount ∧
      (∃ height maxRedeemableEth, after.redeemManager.redeemQueue =
        system.redeemManager.redeemQueue ++
          [{ height := height, amount := amount, recipient := recipient,
             initiator := user, maxRedeemableEth := maxRedeemableEth }]) ∧
      after.withApprovals system.river.approvals =
        other.withApprovals system.river.approvals := by
  have sound := Sound.of_reachable reachable
  have standing := Standing.of_reachable reachable
  have fits : system.river.totalShares < wordLimit :=
    sound.river.shares_total ▸ standing.river.supply
  refine ⟨?_, ?_⟩
  · constructor
    · rintro ⟨⟨after, id⟩, returned⟩
      obtain ⟨redeemManager, requested, -⟩ := (requestRedeem_iff standing fits
        managerAllowed riverAllowed).mp returned
      exact ⟨_, (requestRedeemFor_iff standing fits managerAllowed
        allowance).mpr ⟨redeemManager, requested, rfl⟩⟩
    · rintro ⟨⟨after, id⟩, returned⟩
      obtain ⟨redeemManager, requested, -⟩ := (requestRedeemFor_iff standing
        fits managerAllowed allowance).mp returned
      exact ⟨_, (requestRedeem_iff standing fits managerAllowed
        riverAllowed).mpr ⟨redeemManager, requested, rfl⟩⟩
  · intro after id other otherId returned answered
    obtain ⟨redeemManager, requested, rfl⟩ := (requestRedeem_iff standing fits
      managerAllowed riverAllowed).mp returned
    obtain ⟨another, again, rfl⟩ := (requestRedeemFor_iff standing fits
      managerAllowed allowance).mp answered
    obtain ⟨rfl, rfl⟩ := requested.pushed.unique again.pushed
    obtain ⟨height, maximum, -, -, -, rfl⟩ := requested.pushed.entry
    refine ⟨rfl, ?_, rfl, rfl, ⟨height, maximum, rfl⟩, ?_⟩
    · simp only [River.moved, River.spent_same.2]
    · rw [withApprovals, withApprovals]
      unfold River.spent
      split <;> rfl

/-- A deposit of 10 ether and an approval of one LsETH for the redeem
manager. -/
def sampleApproved : Except Error System := do
  let start := fresh sample
  let river ← (River.Call.deposit (10 * ether)).apply start.river
    start.allowlist alice
  let river ← (River.Call.approve sample.redeemManager ether).apply river
    start.allowlist alice
  return { start with river := river }

theorem redeem_paths_agree_sample : ∃ system after other,
    sampleApproved = .ok system ∧
    system.requestRedeem sample alice ether (.ofNat 2) = .ok (after, 0) ∧
    system.requestRedeemFor sample alice ether (.ofNat 2) = .ok (other, 0) ∧
    after.withApprovals system.river.approvals =
      other.withApprovals system.river.approvals := by
  have checked : returns sampleApproved (fun system =>
      decide (ether ≤ system.river.approvals alice sample.redeemManager ∧
        system.allowlist.isDenied sample.river = false ∧
        system.allowlist.isDenied sample.redeemManager = false) &&
      returns (system.requestRedeem sample alice ether (.ofNat 2))
        (fun result => decide (result.2 = 0))) = true := by
    decide +kernel
  obtain ⟨system, returned, facts⟩ := returns_iff.mp checked
  obtain ⟨guards, requesting⟩ := Bool.and_eq_true_iff.mp facts
  obtain ⟨allowance, riverAllowed, managerAllowed⟩ :=
    of_decide_eq_true guards
  obtain ⟨⟨after, id⟩, requested, first⟩ := returns_iff.mp requesting
  obtain rfl : id = 0 := of_decide_eq_true first
  have reachable : Reachable sample system := by
    simp only [sampleApproved, bind_eq_ok, pure_eq_ok] at returned
    obtain ⟨deposited, depositing, approved, approving, rfl⟩ := returned
    have external : sample.External alice := by decide
    have start : Reachable sample (fresh sample) := .refl
    exact (start.tail (.operation (.river external depositing))).tail
      (.operation (.river external approving))
  obtain ⟨together, agree⟩ := redeem_paths_agree reachable alice (.ofNat 2)
    ether allowance riverAllowed managerAllowed
  obtain ⟨⟨other, otherId⟩, answered⟩ := together.mp ⟨_, requested⟩
  obtain ⟨rfl, -, -, -, -, same⟩ := agree _ _ _ _ requested answered
  exact ⟨system, after, other, returned, requested, answered, same⟩

end System

end RiverProtocol
