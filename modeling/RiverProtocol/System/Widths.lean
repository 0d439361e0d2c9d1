import RiverProtocol.River.Widths
import RiverProtocol.System.Progress
import RiverProtocol.System.ReportBounds

/-!
# A report within widths returns

Explicit bounds on the numbers a report works with, under which none of its
sums and products leaves its width.  A report that passes its checks then
returns.
-/

namespace RiverProtocol

open Checked Outcome

namespace OperatorsRegistry

variable {registry : OperatorsRegistry} {deposited : Nat}

theorem fits_getStoppedAndRequestedExitCounts
    (accounted : registry.Accounted deposited) (small : deposited < wordLimit) :
    Fits registry.getStoppedAndRequestedExitCounts :=
  .bind (fits_uadd (accounted.demand.trans_lt small)) fun _ _ => .pure _

theorem fits_demandValidatorExits {count : Nat}
    (accounted : registry.Accounted deposited) (small : deposited < wordLimit) :
    Fits (registry.demandValidatorExits count deposited) := by
  have demand := accounted.demand
  refine .next (uadd_of_lt (demand.trans_lt small)) ?_
  refine .difference ?_
  rw [LibUint256.min_eq]
  dsimp only
  split
  · have within := Nat.min_le_right count (deposited -
      (registry.totalValidatorExitsRequested +
        registry.currentValidatorExitsDemand))
    exact .bind (fits_uadd (by omega)) fun _ _ => .pure _
  · exact .pure _

theorem fits_stopOne {loop : StoppedLoop} {index stoppedCount : Nat}
    (unsolicited : loop.unsolicitedExitsSum ≤ loop.count)
    (small : loop.count + stoppedCount < uint32Limit) :
    Fits (stopOne loop index stoppedCount) := by
  have narrow : uint32Limit < wordLimit := by decide
  refine .bind (.fetch (panic_ne (by decide))) fun operator _ => ?_
  refine .bind (.require (by simp)) fun _ _ => ?_
  refine .bind ?_ fun _ _ => .bind (fits_uadd32 small) fun _ _ => .pure _
  split
  · refine .difference ?_
    exact .bind (fits_uadd (by omega)) fun _ _ => .pure _
  · exact .pure _

theorem stopOne_unsolicited {loop after : StoppedLoop}
    {index stoppedCount : Nat}
    (unsolicited : loop.unsolicitedExitsSum ≤ loop.count)
    (returned : stopOne loop index stoppedCount = .ok after) :
    after.unsolicitedExitsSum ≤ after.count := by
  simp only [stopOne, bind_eq_ok, uadd32_eq_ok, pure_eq_ok, Prod.exists]
    at returned
  obtain ⟨operator, -, -, -, operators, sum, writing, count, ⟨-, rfl⟩, rfl⟩ :=
    returned
  dsimp only
  split at writing
  · simp only [bind_eq_ok, usub_eq_ok, uadd_eq_ok, pure_eq_ok,
      Prod.mk.injEq] at writing
    obtain ⟨_, ⟨-, rfl⟩, _, ⟨-, rfl⟩, -, rfl⟩ := writing
    omega
  · simp only [pure_eq_ok, Prod.mk.injEq] at writing
    omega

theorem fits_stopEach {index : Nat} {counts current : List Nat}
    {loop : StoppedLoop} (unsolicited : loop.unsolicitedExitsSum ≤ loop.count)
    (small : loop.count + counts.sum < uint32Limit) :
    Fits (stopEach index counts current loop) := by
  induction counts generalizing index current loop with
  | nil => exact .pure _
  | cons stoppedCount counts induction =>
      rw [List.sum_cons] at small
      have first : Fits (stopOne loop index stoppedCount) :=
        fits_stopOne unsolicited (by omega)
      have remaining : ∀ rest next,
          stopOne loop index stoppedCount = .ok next →
          Fits (stopEach (index + 1) counts rest next) := by
        intro rest next stopping
        refine induction (stopOne_unsolicited unsolicited stopping) ?_
        rw [(stopOne_frame stopping).1]
        omega
      cases current with
      | nil => exact .bind first fun next => remaining [] next
      | cons old current =>
          exact .bind (.require (by simp)) fun _ _ =>
            .bind first fun next => remaining current next

theorem stopEach_unsolicited_le {index : Nat} {counts current : List Nat}
    {loop after : StoppedLoop}
    (unsolicited : loop.unsolicitedExitsSum ≤ loop.count)
    (returned : stopEach index counts current loop = .ok after) :
    after.unsolicitedExitsSum ≤ after.count := by
  induction counts generalizing index current loop with
  | nil =>
      simp only [stopEach, pure_eq_ok] at returned
      rwa [← returned]
  | cons stoppedCount counts induction =>
      obtain ⟨next, rest, first, remaining⟩ := stopEach_cons returned
      exact induction (stopOne_unsolicited unsolicited first) remaining

theorem fits_reportStoppedValidatorCounts {total : Nat} {counts : List Nat}
    (accounted : registry.Accounted deposited)
    (sum : counts.sum ≤ deposited) (small : deposited < uint32Limit) :
    Fits (registry.reportStoppedValidatorCounts (total :: counts)
      deposited) := by
  have narrow : 2 * uint32Limit < wordLimit := by decide
  have demand := accounted.demand
  refine .bind (.require (by simp)) fun _ _ => ?_
  refine .bind (.require (by simp)) fun _ _ => ?_
  have started : 0 + counts.sum < uint32Limit := by omega
  refine .bind (fits_stopEach (Nat.le_refl 0) started)
    fun loop looping => ?_
  have counted : loop.count = 0 + counts.sum := stopEach_count looping
  have unsolicited := stopEach_unsolicited_le (Nat.le_refl 0) looping
  refine .bind (fits_uadd (by omega)) fun _ _ => ?_
  refine .bind fits_usub fun _ _ => ?_
  exact .bind (.require (by simp)) fun _ _ =>
    .bind (.require (by simp)) fun _ _ => .pure _

end OperatorsRegistry

namespace RedeemManager

variable {manager : RedeemManager}

theorem fits_pullExceedingEth {max : Nat} :
    Checked.Fits (manager.pullExceedingEth max) := by
  unfold pullExceedingEth
  dsimp only
  split
  · exact .bind fits_usub fun _ _ => .bind (.require (by simp)) fun _ _ =>
      .pure _
  · exact .pure _

/-- Events lie side by side, so the last one ends where their sum does. -/
theorem fits_nextHeight (geometry : Geometry manager)
    (stack : manager.eventAmounts.sum < wordLimit) :
    Checked.Fits (nextHeight
      (manager.withdrawalStack.map WithdrawalEvent.position)
      (toUint32 manager.withdrawalStack.length)) := by
  have narrow := toUint32_lt manager.withdrawalStack.length
  unfold nextHeight
  split
  · refine .bind (.fetch (panic_ne (by decide))) fun position fetched => ?_
    rw [fetch_eq_ok, List.getElem?_map, Option.map_eq_some_iff] at fetched
    obtain ⟨event, found, rfl⟩ := fetched
    refine fits_uadd (Nat.lt_of_le_of_lt ?_ stack)
    have amount : manager.eventAmounts[toUint32
        manager.withdrawalStack.length - 1]? = some event.amount := by
      rw [eventAmounts, List.getElem?_map, found]
      rfl
    have start := geometry.event_start _ event (by omega) found
    change event.height + event.amount ≤ _
    rw [start, ← Lists.sum_take_succ amount]
    exact Lists.sum_take_le _ _
  · exact .pure _

theorem fits_reportWithdraw (geometry : Geometry manager) {amount eth : Nat}
    (stack : manager.eventAmounts.sum < wordLimit)
    (small : manager.balance + eth < wordLimit) :
    Checked.Fits (manager.reportWithdraw amount eth) :=
  .bind (fits_uadd small) fun _ _ => .bind (.require (by simp)) fun _ _ =>
    .bind (fits_nextHeight geometry stack) fun _ _ => .pure _

end RedeemManager

namespace System

variable {deployment : Deployment} {system after prepared : System}
  {funds : ExternalFunds} {timestamp : Nat} {sender : Address}
  {report : ConsensusLayerReport} {increase : River.ReportIncrease}

theorem fits_applyReport
    (held : increase.skimmedAmountIncrease + increase.exitedAmountIncrease ≤
      system.withdraw.balance)
    (assets : system.river.assets + system.withdraw.balance < wordLimit)
    (ledger : system.river.balance ≤ system.river.assets) :
    Fits (system.applyReport increase report) := by
  have balances := system.river.balances_le_assets
  refine .bind (fits_uadd (by omega)) fun total _ => ?_
  refine .bind ?_ fun _ _ => .pure _
  split
  · refine .next (uadd_of_lt (by omega)) ?_
    rw [LibUint256.min_eq, Nat.min_eq_right held]
    refine .bind (fits_uadd (by omega)) fun _ _ => ?_
    refine .bind fits_usub fun _ _ => .bind (.require (by simp)) fun _ _ => ?_
    refine .bind ?_ fun _ _ => .bind ?_ fun _ _ => .pure _
    · split
      · exact fits_uadd (by omega)
      · exact .pure _
    · split
      · exact fits_uadd (by omega)
      · exact .pure _
  · exact .pure _

theorem fits_pullWithin {rewards available : Nat}
    (held : system.river.balanceToDeposit ≤ system.river.balance)
    (small : system.river.balance + available < wordLimit)
    (earned : rewards + available < wordLimit) :
    Fits (system.pullWithin funds rewards available) := by
  refine .bind ?_ fun first pulling => ?_
  · split
    · have asked := funds.pullELFees_le available
      exact .bind (River.fits_collectToDeposit held (by omega)) fun _ _ =>
        .pure _
    · exact .pure _
  obtain ⟨fees, rest⟩ := pulledELFees_ok pulling
  have within : first.2 ≤ available :=
    fees.trans_le (funds.pullELFees_le available)
  have received : first.1.river = system.river.received first.2 := by
    rw [rest]
  refine .bind (fits_uadd (by omega)) fun _ _ => ?_
  refine .difference ?_
  have heldThen : first.1.river.balanceToDeposit ≤ first.1.river.balance := by
    rw [received]
    exact Nat.add_le_add_right held _
  have smallThen : first.1.river.balance + (available - first.2) <
      wordLimit := by
    rw [received]
    simp only [River.received]
    omega
  refine .bind ?_ fun second pulling => ?_
  · split
    · refine .bind RedeemManager.fits_pullExceedingEth fun sent sending => ?_
      obtain ⟨amount, -⟩ := RedeemManager.pullExceedingEth_ok sending
      have asked : sent.2 ≤ available - first.2 := by
        rw [amount]
        exact Nat.min_le_right _ _
      exact .bind (River.fits_collectToDeposit heldThen (by omega)) fun _ _ =>
        .pure _
    · exact .pure _
  obtain ⟨manager, sent, restThen⟩ := pulledExceeding_ok pulling
  obtain ⟨amount, -⟩ := RedeemManager.pullExceedingEth_ok sent
  have withinThen : second.2 ≤ available - first.2 :=
    amount.trans_le (Nat.min_le_right _ _)
  have receivedThen : second.1.river = first.1.river.received second.2 := by
    rw [restThen]
    rfl
  refine .difference ?_
  refine .bind ?_ fun _ _ => .pure _
  split
  · have asked :=
      funds.pullCoverageFunds_le (available - first.2 - second.2)
    unfold pullCoverageFunds
    split
    · exact .pure _
    · refine .bind (River.fits_collectToDeposit ?_ ?_) fun _ _ => .pure _
      · rw [receivedThen]
        exact Nat.add_le_add_right heldThen _
      · rw [receivedThen]
        simp only [River.received]
        omega
  · exact .pure _

theorem fits_requestExits {exitingBalance : Nat} {allowed : Bool}
    (accounted : system.registry.Accounted
      system.river.depositedValidatorCount)
    (validators : system.river.depositedValidatorCount < uint32Limit)
    (assets : system.river.assets < amountLimit)
    (demand : system.redeemManager.redeemDemand < 2 ^ 113)
    (exiting : exitingBalance < amountLimit) :
    Fits (system.requestExits exitingBalance allowed) := by
  have small : system.river.assets < wordLimit := assets.trans (by decide)
  have narrow : system.river.depositedValidatorCount < wordLimit :=
    validators.trans (by decide)
  have product := mul_lt_pow demand assets
  have held := system.river.balances_le_assets
  have limits : 2 * amountLimit + uint32Limit * depositSize < wordLimit := by
    decide +kernel
  unfold requestExits
  split
  · refine .bind (River.fits_balanceFromShares small
      (product.trans (by decide))) fun value valued => ?_
    have worth : value < 2 ^ (113 + 112) := by
      unfold River.balanceFromShares at valued
      split at valued
      · rw [pure_eq_ok] at valued
        omega
      · simp only [bind_eq_ok, umul_eq_ok, udiv_eq_ok] at valued
        obtain ⟨balance, valued, _, ⟨-, rfl⟩, -, rfl⟩ := valued
        obtain rfl := River.assetBalance_ok valued
        exact (Nat.div_le_self _ _).trans_lt product
    refine .bind (fits_uadd (by omega)) fun _ _ => ?_
    split
    · refine .bind (River.fits_rebalance small) fun river moving => ?_
      obtain ⟨amount, inside, rfl⟩ := River.rebalance_ok moving
      have moved := River.rebalanced_assets inside
      have heldThen := (system.river.rebalanced amount).balances_le_assets
      refine .bind (OperatorsRegistry.fits_getStoppedAndRequestedExitCounts
        accounted narrow) fun counts counting => ?_
      have requested : counts.2 ≤ system.river.depositedValidatorCount := by
        simp only [OperatorsRegistry.getStoppedAndRequestedExitCounts,
          bind_eq_ok, uadd_eq_ok, pure_eq_ok] at counting
        obtain ⟨_, ⟨-, rfl⟩, rfl⟩ := counting
        exact accounted.demand
      refine .bind ?_ fun preExiting counted => ?_
      · split
        · exact fits_usub
        · exact .pure _
      have few : preExiting < uint32Limit := by
        split at counted
        · obtain ⟨-, rfl⟩ := usub_eq_ok.mp counted
          omega
        · rw [pure_eq_ok] at counted
          omega
      have deposits : preExiting * depositSize ≤ uint32Limit * depositSize :=
        Nat.mul_le_mul_right _ few.le
      refine .next (umul_of_lt (by omega)) ?_
      refine .next (uadd_of_lt (by omega)) ?_
      refine .next (uadd_of_lt (by omega)) ?_
      split
      · refine .difference ?_
        refine .bind (LibUint256.fits_ceil ?_) fun _ _ => ?_
        · have wide : 2 ^ (113 + 112) + 1 < wordLimit := by decide
          omega
        · exact .bind (OperatorsRegistry.fits_demandValidatorExits accounted
            narrow) fun _ _ => .pure _
      · exact .pure _
    · exact .pure _
  · exact .pure _

theorem fits_requestExitsBasedOnRedeemDemandAfterRebalancings
    {exitingBalance total : Nat} {counts : List Nat} {allowed contained : Bool}
    (accounted : system.registry.Accounted
      system.river.depositedValidatorCount)
    (accepted : OperatorsRegistry.AcceptedCounts system.registry
      system.river.depositedValidatorCount total counts)
    (validators : system.river.depositedValidatorCount < uint32Limit)
    (assets : system.river.assets < amountLimit)
    (demand : system.redeemManager.redeemDemand < 2 ^ 113)
    (exiting : exitingBalance < amountLimit) :
    Fits (system.requestExitsBasedOnRedeemDemandAfterRebalancings
      exitingBalance (total :: counts) allowed contained) := by
  have sum := accepted.sum.ge.trans accepted.total_le
  refine .bind (OperatorsRegistry.fits_reportStoppedValidatorCounts accounted
    sum validators) fun registry reporting => ?_
  have reported :=
    OperatorsRegistry.reportStoppedValidatorCounts_ok accounted reporting
  dsimp only
  split
  · exact .pure _
  · exact fits_requestExits reported validators assets demand exiting

theorem fits_suppliedDemand (assets : system.river.assets < amountLimit)
    (shares : system.river.shares < 2 ^ 113)
    (demand : system.redeemManager.redeemDemand < 2 ^ 113) :
    Fits system.suppliedDemand := by
  have small : system.river.assets < wordLimit := assets.trans (by decide)
  have held := system.river.balances_le_assets
  have balance : system.river.balanceToRedeem < amountLimit := by omega
  refine .bind (River.fits_balanceFromShares small
    (mul_lt_word demand assets (by decide))) fun _ _ => ?_
  dsimp only
  split
  · exact .bind (River.fits_sharesFromBalance small
      (mul_lt_word balance shares (by decide))) fun _ _ => .pure _
  · exact .pure _

theorem fits_reportWithdrawToRedeemManager
    (geometry : RedeemManager.Geometry system.redeemManager)
    (assets : system.river.assets < amountLimit)
    (shares : system.river.shares < 2 ^ 113)
    (demand : system.redeemManager.redeemDemand < 2 ^ 113)
    (stack : system.redeemManager.eventAmounts.sum < wordLimit)
    (balance : system.redeemManager.balance < amountLimit) :
    Fits (system.reportWithdrawToRedeemManager deployment) := by
  have held := system.river.balances_le_assets
  have double : 2 * amountLimit < wordLimit := by decide
  refine .bind (River.fits_assetBalance (by omega)) fun _ _ => ?_
  dsimp only
  split
  · refine .bind (fits_suppliedDemand assets shares demand)
      fun supply supplied => ?_
    obtain ⟨amount, eth⟩ := supply
    have within : eth ≤ system.river.balanceToRedeem := by
      rcases suppliedDemand_ok supplied with ⟨enough, -, rfl⟩ | ⟨-, -, rfl⟩
      · exact enough
      · exact le_rfl
    dsimp only
    split
    · refine .bind River.fits_burnRawShares fun _ _ => ?_
      refine .bind (.require (by simp)) fun _ _ => ?_
      exact .bind (RedeemManager.fits_reportWithdraw geometry stack
        (by omega)) fun _ _ => .pure _
    · exact .pure _
  · exact .pure _

theorem fits_finishReport {timeElapsed : Nat} {contained : Bool}
    (geometry : RedeemManager.Geometry system.redeemManager)
    (assets : system.river.assets < amountLimit)
    (shares : system.river.shares < 2 ^ 113)
    (demand : system.redeemManager.redeemDemand < 2 ^ 113)
    (stack : system.redeemManager.eventAmounts.sum < wordLimit)
    (balance : system.redeemManager.balance < amountLimit)
    (elapsed : timeElapsed < uint64Limit)
    (settings : system.river.config.Moderate) :
    Fits (system.finishReport deployment timeElapsed contained) := by
  refine .bind (fits_reportWithdrawToRedeemManager geometry assets shares
    demand stack balance) fun withdrawn withdrawing => ?_
  have kept : withdrawn.river.assets ≤ system.river.assets ∧
      withdrawn.river.config = system.river.config := by
    rcases reportWithdrawToRedeemManager_ok withdrawing with
      ⟨rfl, -⟩ | ⟨amount, eth, withdrawal⟩
    · exact ⟨le_rfl, rfl⟩
    · rw [withdrawal.after_eq]
      have left : (system.river.withdrawn deployment.redeemManager amount
          eth).assets + eth = system.river.assets :=
        River.withdrawn_assets withdrawal.eth_le
      exact ⟨Nat.le.intro left, rfl⟩
  obtain ⟨less, same⟩ := kept
  have small := less.trans_lt assets
  refine .bind (River.fits_skimExcessBalanceToRedeem
    (small.trans (by decide))) fun skimmed skimming => ?_
  obtain rfl := River.skimExcessBalanceToRedeem_ok skimming
  refine .bind (River.fits_commitBalanceToDeposit ?_ elapsed ?_) fun _ _ =>
    .pure _
  · rw [River.skimmed_assets]
    exact small
  · exact same ▸ settings

/-- Bounds on the numbers of the system and of a report. -/
structure Moderate (system : System) (report : ConsensusLayerReport) :
    Prop where
  settings : system.river.config.Moderate
  elapsed : (system.increaseOf report).timeElapsedSinceLastReport < uint64Limit
  upper : system.river.assets +
    system.river.config.reportBounds.increase system.river.assets
      (system.increaseOf report).timeElapsedSinceLastReport < amountLimit
  shares : system.river.shares < amountLimit
  validators : system.river.depositedValidatorCount < uint32Limit
  withdraw : system.withdraw.balance < amountLimit
  balance : system.redeemManager.balance < amountLimit
  stack : system.redeemManager.eventAmounts.sum < wordLimit
  exiting : report.validatorsExitingBalance < amountLimit

theorem fits_prepareReport {total : Nat} {counts : List Nat}
    (sound : Sound deployment system)
    (acceptable : Acceptable system timestamp sender report total counts)
    (moderate : Moderate system report) :
    Fits (system.prepareReport funds timestamp sender report) := by
  have wide : 2 * amountLimit < wordLimit := by decide
  have upper := moderate.upper
  have withdraw := moderate.withdraw
  have ledger := sound.river.ledger
  have balances := system.river.balances_le_assets
  have reached : (system.applied (system.increaseOf report)
      report).river.assets < amountLimit := acceptable.upper.trans_lt upper
  have elapsed : River.elapsedSeconds system.river.config.clSpec
      system.river.lastConsensusLayerReport.epoch report.epoch < wordLimit :=
    moderate.elapsed.trans (by decide)
  refine .bind (River.fits_checkReport acceptable.epoch moderate.settings
    elapsed) fun increase checking => ?_
  obtain rfl := increaseOf_eq checking
  have held := (sound.applied (River.checkReport_ok checking)).river
  have heldLedger := held.ledger
  have heldBalances := (system.applied (system.increaseOf report)
    report).river.balances_le_assets
  refine .bind (River.fits_assetBalance (by omega)) fun before valued => ?_
  obtain rfl := River.assetBalance_ok valued
  refine .bind (fits_applyReport acceptable.held (by omega) (by omega))
    fun applied applying => ?_
  obtain ⟨-, rfl⟩ := applyReport_ok applying
  refine .bind (River.fits_assetBalance (by omega)) fun post valued => ?_
  obtain rfl := River.assetBalance_ok valued
  refine .bind (River.fits_checkBounds upper moderate.settings.increase
    moderate.settings.decrease moderate.elapsed) fun bounds bounding => ?_
  obtain ⟨rewards, available⟩ := bounds
  have bounded := River.checkBounds_ok bounding
  have left : (system.applied (system.increaseOf report) report).river.assets +
      available = system.river.assets +
        system.river.config.reportBounds.increase system.river.assets
          (system.increaseOf report).timeElapsedSinceLastReport :=
    bounded.available
  have gained := bounded.rewards
  refine .bind (fits_pullWithin (by omega) (by omega) (by omega))
    fun pulled pulling => ?_
  obtain ⟨pulled, trace⟩ := pulled
  obtain ⟨redeemManager, pulls, rfl⟩ := pullWithin_ok pulling
  have within : trace.collected ≤ available := pulls.within
  have assets : ((system.applied (system.increaseOf report)
      report).collected redeemManager trace.collected).river.assets =
        (system.applied (system.increaseOf report) report).river.assets +
          trace.collected := River.received_assets
  have earned := pulls.rewards_le bounded
  refine .bind ?_ fun rewarded earning => ?_
  · split
    · refine River.fits_onEarnings ?_ (by omega) (by omega) moderate.shares
        moderate.settings
      exact held.owned_le
    · exact .pure _
  obtain ⟨-, rfl⟩ := River.earned_ok earning
  refine .bind ?_ fun _ _ => .pure _
  rw [acceptable.stopped]
  obtain ⟨-, -, manager⟩ := RedeemManager.pullExceedingEth_ok pulls.exceeding
  apply fits_requestExitsBasedOnRedeemDemandAfterRebalancings
  · exact sound.registry
  · exact acceptable.counts
  · exact moderate.validators
  · exact (River.minted_assets.trans assets).trans_lt (by omega)
  · have demand : redeemManager.redeemDemand =
        system.redeemManager.redeemDemand := by
      rw [manager]
      rfl
    have owned := sound.redeem_backed.trans (sound.river.owned_le _)
    exact demand.trans_lt (owned.trans_lt (moderate.shares.trans (by decide)))
  · exact moderate.exiting

/-- What is left moderate for the withdrawal step. -/
theorem Preparation.shares_lt {trace : ReportingTrace}
    (stages : Preparation funds timestamp sender report system prepared
      increase trace) (settings : system.river.config.Moderate)
    (shares : system.river.shares < amountLimit) :
    prepared.river.shares < 2 ^ 113 := by
  have minted : ((system.applied increase report).collected
      stages.redeemManager trace.collected).river.feeShares trace.rewards ≤
        system.river.shares :=
    River.feeShares_le ((stages.pulls.rewards_le
      (River.checkBounds_ok stages.bounds)).trans_eq
        River.received_assets.symm) settings.half
  have supply : prepared.river.shares = system.river.shares +
      ((system.applied increase report).collected stages.redeemManager
        trace.collected).river.feeShares trace.rewards :=
    congrArg (fun state : System => state.river.shares) stages.prepared_eq
  have double : 2 * amountLimit = 2 ^ 113 := by decide
  rw [supply]
  omega

end System

end RiverProtocol
