import RiverProtocol.System.Invariants

/-!
# Shares and ether of a reachable system

No operation creates or loses shares or ether.
-/

namespace RiverProtocol

open Checked Outcome LibAllowlistMasks

open RedeemManager (alice)

namespace System

variable {deployment : Deployment} {system after : System}

/-- The shares of all owners are the supply, the redeem manager owns what is
asked of it, and the burn of a withdrawal never underflows, neither between
calls nor inside a report. -/
theorem shares_conserved (reachable : Reachable deployment system) :
    system.river.totalShares = system.river.shares ∧
    system.redeemManager.redeemDemand ≤
      system.river.sharesPerOwner deployment.redeemManager ∧
    (∀ amount ≤ system.redeemManager.redeemDemand,
      ∃ burnt, system.river.burnRawShares deployment.redeemManager amount =
        .ok burnt) ∧
    ∀ (funds : ExternalFunds) (timestamp : Nat) (sender : Address)
      (report : ConsensusLayerReport) (prepared : System)
      (increase : River.ReportIncrease) (trace : ReportingTrace)
      (amount eth : Nat),
      system.prepareReport funds timestamp sender report =
        .ok (prepared, increase, trace) →
      prepared.suppliedDemand = .ok (amount, eth) →
      ∃ burnt, ({ prepared.river with
        balanceToRedeem := prepared.river.balanceToRedeem - eth } :
          River).burnRawShares deployment.redeemManager amount = .ok burnt := by
  have sound := Sound.of_reachable reachable
  refine ⟨sound.river.shares_total, sound.redeem_backed, ?_, ?_⟩
  · intro amount demanded
    have owned := demanded.trans sound.redeem_backed
    exact ⟨_, River.burnRawShares_of_le
      (owned.trans (sound.river.owned_le _)) owned⟩
  · intro funds timestamp sender report prepared increase trace amount eth
      preparing supplied
    have soundPrepared := sound.prepare preparing
    have owned := (suppliedDemand_le supplied).trans
      soundPrepared.redeem_backed
    exact ⟨_, River.burnRawShares_of_le
      (owned.trans (soundPrepared.river.owned_le _)) owned⟩

section Sample

def sampleAllowlist : Allowlist :=
  { administrable := { admin := .ofNat 10, pendingAdmin := .zero }
    allower := .ofNat 10
    denier := .ofNat 10
    permissions := fun _ => depositMask ||| redeemMask }

def sampleConfig : RiverConfig :=
  { administrable := { admin := .ofNat 10, pendingAdmin := .zero }
    oracle := .ofNat 11
    keeper := .ofNat 12
    collector := .ofNat 13
    elFeeRecipient := .ofNat 14
    coverageFund := .ofNat 15
    allowlist := .ofNat 16
    globalFee := ⟨1000, by decide⟩
    metadataURI := ""
    clSpec :=
      { epochsPerFrame := 225, slotsPerEpoch := 32, secondsPerSlot := 12,
        genesisTime := 0, epochsToAssumedFinality := 4 }
    reportBounds := { annualAprUpperBound := 1000, relativeLowerBound := 250 }
    dailyCommittableLimits :=
      { minDailyNetCommittableAmount := 3200 * ether
        maxDailyRelativeCommittableAmount := 1000 } }

def sample : Deployment :=
  { river := .ofNat 101
    redeemManager := .ofNat 102
    operatorsRegistry := .ofNat 103
    wlseth := .ofNat 104
    withdraw := .ofNat 105
    distinct := by decide
    nonzero := by decide
    config := sampleConfig
    registryAdmin := .ofNat 10
    allowlists := fun _ => sampleAllowlist }

/-- The execution layer fee recipient sends up to `fees` wei. -/
def feesUpTo (fees : Nat) : ExternalFunds :=
  { pullELFees := fun max => min fees max
    pullCoverageFunds := fun _ => 0
    pullELFees_le := fun _ => Nat.min_le_right _ _
    pullCoverageFunds_le := fun _ => Nat.zero_le _ }

/-- A report before any validator is active. -/
def quietReport (epoch : Nat) (rebalance : Bool) : ConsensusLayerReport :=
  { epoch := epoch
    validatorsBalance := 0
    validatorsSkimmedBalance := 0
    validatorsExitedBalance := 0
    validatorsExitingBalance := 0
    validatorsCount := 0
    rebalanceDepositToRedeemMode := rebalance
    slashingContainmentMode := false
    stoppedValidatorCountPerOperator := [0] }

/-- A deposit of 32 ether and 5 wei and a request of 10 LsETH. -/
def sampleRequested : Except Error System := do
  let start := fresh sample
  let river ← (River.Call.deposit (depositSize + 5)).apply start.river
    start.allowlist alice
  let deposited : System := { start with river := river }
  let (requested, _) ← deposited.requestRedeem sample alice (10 * ether) alice
  return requested

/-- A report commits the 32 ether. -/
def sampleCommitted : Except Error System := do
  let requested ← sampleRequested
  let (committed, _) ← requested.setConsensusLayerData sample (feesUpTo 0)
    1000000 (.ofNat 11) (quietReport 225 false)
  return committed

/-- A second report serves 5 wei of the request. -/
def sampleRun : Except Error System := do
  let committed ← sampleCommitted
  let (served, _) ← committed.setConsensusLayerData sample (feesUpTo 0)
    1000000 (.ofNat 11) (quietReport 450 true)
  return served

theorem sampleRequested_run {system : System}
    (returned : sampleRequested = .ok system) :
    Relation.ReflTransGen (Operation sample) (fresh sample) system := by
  simp only [sampleRequested, bind_eq_ok, pure_eq_ok, Prod.exists]
    at returned
  obtain ⟨river, depositing, requested, id, requesting, rfl⟩ := returned
  have external : sample.External alice := by decide
  exact (Relation.ReflTransGen.single (.river external depositing)).tail
    (.requestRedeem external requesting)

theorem sampleRun_reachable {system : System}
    (returned : sampleRun = .ok system) : Reachable sample system := by
  simp only [sampleRun, sampleCommitted, bind_eq_ok, pure_eq_ok, Prod.exists]
    at returned
  obtain ⟨committed, ⟨requested, requesting, middle, firstTrace, first, rfl⟩,
    served, secondTrace, second, rfl⟩ := returned
  have afterRequest : Reachable sample requested :=
    Relation.ReflTransGen.mono (fun _ _ => .operation) _ _
      (sampleRequested_run requesting)
  exact (afterRequest.tail (.report first)).tail (.report second)

theorem shares_conserved_sample : ∃ system, sampleRun = .ok system ∧
    system.river.totalShares = depositSize ∧
    10 * ether - 5 ≤ system.river.sharesPerOwner sample.redeemManager := by
  have checked : returns sampleRun (fun system =>
      system.river.shares = depositSize ∧
        system.redeemManager.redeemDemand = 10 * ether - 5) = true := by
    decide +kernel
  obtain ⟨system, returned, facts⟩ := returns_iff.mp checked
  obtain ⟨supply, demand⟩ := of_decide_eq_true facts
  obtain ⟨total, backed, -⟩ := shares_conserved (sampleRun_reachable returned)
  exact ⟨system, returned, total.trans supply, demand ▸ backed⟩

end Sample

/-- River holds what its balances say, has taken from the withdraw contract
what was reported, and moving ether between its balances or to validators
leaves the asset balance unchanged. -/
theorem eth_ledger (reachable : Reachable deployment system) :
    system.river.balance = system.river.balanceToDeposit +
      system.river.committedBalance + system.river.balanceToRedeem ∧
    system.withdraw.pulled =
      system.river.lastConsensusLayerReport.validatorsSkimmedBalance +
        system.river.lastConsensusLayerReport.validatorsExitedBalance ∧
    system.river.balanceToRedeem = 0 ∧
    depositSize ∣ system.river.committedBalance ∧
    system.river.lastConsensusLayerReport.validatorsCount ≤
      system.river.depositedValidatorCount ∧
    (∀ (river after : River) (period : Nat) (contained : Bool),
      river.commitBalanceToDeposit period contained = .ok after →
      after.assetBalance = river.assetBalance) ∧
    (∀ (river after : River) (demand exitingBalance : Nat) (allowed : Bool),
      river.rebalance demand exitingBalance allowed = .ok after →
      after.assetBalance = river.assetBalance) ∧
    (∀ river after : River, river.skimExcessBalanceToRedeem = .ok after →
      after.assetBalance = river.assetBalance) ∧
    ∀ (contract : DepositContract) (sender : Address)
      (allocations : List OperatorAllocation) (depositRoot : Nat)
      (after : System),
      system.depositToConsensusLayer deployment contract sender allocations
        depositRoot = .ok after →
      ∃ registry validators,
        system.registry.pickNextValidatorsToDeposit allocations =
          .ok (registry, validators) ∧
        after.river.committedBalance + depositSize * validators.length =
          system.river.committedBalance ∧
        after.river.balance + depositSize * validators.length =
          system.river.balance ∧
        after.river.depositedValidatorCount =
          system.river.depositedValidatorCount + validators.length ∧
        after.river.assetBalance = system.river.assetBalance := by
  have sound := Sound.of_reachable reachable
  refine ⟨sound.river.ledger, sound.pulled, redeemed_of_reachable reachable,
    sound.river.deposits, sound.river.counted, ?_, ?_, ?_, ?_⟩
  · intro river after period contained returned
    obtain ⟨count, held, rfl⟩ := River.commitBalanceToDeposit_ok returned
    exact River.assetBalance_congr (River.committed_assets held)
  · intro river after demand exitingBalance allowed returned
    obtain ⟨amount, held, rfl⟩ := River.rebalance_ok returned
    exact River.assetBalance_congr (River.rebalanced_assets held)
  · intro river after returned
    obtain rfl := River.skimExcessBalanceToRedeem_ok returned
    exact River.assetBalance_congr River.skimmed_assets
  · intro contract sender allocations depositRoot after returned
    obtain ⟨registry, validators, picked, enough, held, rfl⟩ :=
      depositToConsensusLayer_moves returned
    exact ⟨registry, validators, picked, Nat.sub_add_cancel enough,
      Nat.sub_add_cancel held, rfl,
      River.assetBalance_congr (sound.river.funded_assets enough)⟩

theorem eth_ledger_sample : ∃ system, sampleRun = .ok system ∧
    system.river.balance = system.river.balanceToDeposit + depositSize ∧
    system.withdraw.pulled = 0 := by
  have checked : returns sampleRun (fun system =>
      system.river.committedBalance = depositSize ∧
        system.river.lastConsensusLayerReport =
          (quietReport 450 true).toStoredConsensusLayerReport) = true := by
    decide +kernel
  obtain ⟨system, returned, facts⟩ := returns_iff.mp checked
  obtain ⟨committed, report⟩ := of_decide_eq_true facts
  obtain ⟨ledger, pulled, redeemed, -⟩ :=
    eth_ledger (sampleRun_reachable returned)
  rw [redeemed, committed, Nat.add_zero] at ledger
  rw [report] at pulled
  exact ⟨system, returned, ledger, pulled⟩

end System

end RiverProtocol
