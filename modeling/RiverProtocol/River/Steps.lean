import Mathlib.Logic.Relation
import RiverProtocol.Lib.Balances
import RiverProtocol.Lib.Rate
import RiverProtocol.River.Model

/-!
# What each operation of River does

One lemma for each operation describes the state a returning call leaves.  A
call outside a report is a sequence of *moves*: minting against a deposit,
moving shares, writing an approval, changing the settings, and funding
validators.
-/

namespace RiverProtocol

open Checked Outcome Balances

namespace River

variable {river after : River}

/-- The asset balance without its overflow checks. -/
def assets (river : River) : Nat :=
  river.lastConsensusLayerReport.validatorsBalance + river.balanceToDeposit +
    river.committedBalance + river.balanceToRedeem +
    (river.depositedValidatorCount -
      river.lastConsensusLayerReport.validatorsCount) * depositSize

/-- River as a pool of assets split in shares. -/
def pool (river : River) : Rate.Pool := ⟨river.assets, river.shares⟩

def totalShares (river : River) : Nat := total river.sharesPerOwner

theorem assetBalance_ok {value : Nat}
    (returned : river.assetBalance = .ok value) : value = river.assets := by
  simp only [assetBalance, bind_eq_ok, uadd_eq_ok] at returned
  obtain ⟨first, ⟨-, rfl⟩, second, ⟨-, rfl⟩, third, ⟨-, rfl⟩, returned⟩ :=
    returned
  split at returned
  · simp only [bind_eq_ok, usub_eq_ok, umul_eq_ok, uadd_eq_ok] at returned
    obtain ⟨pending, ⟨-, rfl⟩, product, ⟨-, rfl⟩, -, rfl⟩ := returned
    rfl
  · rename_i activated
    simp only [pure_eq_ok] at returned
    have none : river.depositedValidatorCount -
        river.lastConsensusLayerReport.validatorsCount = 0 := by
      omega
    rw [assets, none, Nat.zero_mul, Nat.add_zero]
    exact returned.symm

/-- The asset balance fails exactly when it does not fit a word. -/
theorem ends_assetBalance {allowed : Error → Prop}
    (overflow : wordLimit ≤ river.assets → allowed (.panic .overflow)) :
    Ends allowed (fun value => value = river.assets ∧ value < wordLimit)
      river.assetBalance := by
  unfold assetBalance
  unfold assets at overflow ⊢
  refine Ends.bind_returned (ends_uadd (fun large => overflow (by omega))
    fun _ => trivial) fun first sum => ?_
  obtain ⟨-, rfl⟩ := uadd_eq_ok.mp sum
  refine Ends.bind_returned (ends_uadd (fun large => overflow (by omega))
    fun _ => trivial) fun second sum => ?_
  obtain ⟨-, rfl⟩ := uadd_eq_ok.mp sum
  refine Ends.bind_returned (ends_uadd (fun large => overflow (by omega))
    fun _ => trivial) fun third sum => ?_
  obtain ⟨fits, rfl⟩ := uadd_eq_ok.mp sum
  split
  · rename_i activating
    refine Ends.bind_returned (ends_usub (Nat.le_of_lt activating) trivial)
      fun pending difference => ?_
    obtain ⟨-, rfl⟩ := usub_eq_ok.mp difference
    refine Ends.bind_returned
      (ends_umul (fun large => overflow (large.trans (Nat.le_add_left _ _)))
        fun _ => trivial) fun product scaled => ?_
    obtain ⟨-, rfl⟩ := umul_eq_ok.mp scaled
    exact ends_uadd overflow fun small => ⟨rfl, small⟩
  · rename_i activated
    have none : river.depositedValidatorCount -
        river.lastConsensusLayerReport.validatorsCount = 0 := by
      omega
    rw [none, Nat.zero_mul, Nat.add_zero]
    exact Ends.pure ⟨rfl, fits⟩

theorem assetBalance_eq : river.assetBalance =
    if river.assets < wordLimit then .ok river.assets
    else .error (.panic .overflow) := by
  have ends : Ends (fun failure => failure = .panic .overflow ∧
      wordLimit ≤ river.assets) _ river.assetBalance :=
    ends_assetBalance fun large => ⟨rfl, large⟩
  cases valued : river.assetBalance with
  | ok value =>
      obtain ⟨rfl, small⟩ := ends.of_ok valued
      rw [if_pos small]
  | error failure =>
      obtain ⟨rfl, large⟩ := ends.of_error valued
      rw [if_neg (Nat.not_lt.mpr large)]

theorem assetBalance_congr (same : after.assets = river.assets) :
    after.assetBalance = river.assetBalance := by
  rw [assetBalance_eq, assetBalance_eq, same]

def moved (river : River) (sender recipient : Address) (value : Nat) :
    River :=
  { river with
    sharesPerOwner := move river.sharesPerOwner sender recipient value }

def minted (river : River) (owner : Address) (value : Nat) : River :=
  { river with
    shares := river.shares + value
    sharesPerOwner := Balances.credit river.sharesPerOwner owner value }

def burnt (river : River) (owner : Address) (value : Nat) : River :=
  { river with
    shares := river.shares - value
    sharesPerOwner := debit river.sharesPerOwner owner value }

/-- Ether received and booked for deposits. -/
def received (river : River) (value : Nat) : River :=
  { river with
    balance := river.balance + value
    balanceToDeposit := river.balanceToDeposit + value }

/-- The shares a deposit of `value` mints. -/
def sharesFor (river : River) (value : Nat) : Nat :=
  if river.assets = 0 ∨ river.shares = 0 then value
  else value * river.shares / river.assets

section Fields

variable {sender recipient owner : Address} {value : Nat}

@[simp] theorem moved_assets :
    (river.moved sender recipient value).assets = river.assets := rfl

@[simp] theorem minted_assets :
    (river.minted owner value).assets = river.assets := rfl

@[simp] theorem minted_shares :
    (river.minted owner value).shares = river.shares + value := rfl

@[simp] theorem received_shares :
    (river.received value).shares = river.shares := rfl

@[simp] theorem received_assets :
    (river.received value).assets = river.assets + value := by
  simp only [assets, received]
  omega

end Fields

theorem transferShares_ok {sender recipient : Address} {value : Nat}
    (returned : river.transferShares sender recipient value = .ok after) :
    value ≤ river.sharesPerOwner sender ∧
      after = river.moved sender recipient value := by
  simp only [transferShares, bind_eq_ok, usub_eq_ok, uadd_eq_ok, pure_eq_ok]
    at returned
  obtain ⟨debited, ⟨enough, rfl⟩, credited, ⟨-, rfl⟩, rfl⟩ := returned
  exact ⟨enough, rfl⟩

theorem transferShares_of_le {sender recipient : Address} {value : Nat}
    (enough : value ≤ river.sharesPerOwner sender)
    (fits : river.totalShares < wordLimit) :
    river.transferShares sender recipient value =
      .ok (river.moved sender recipient value) := by
  have credited : debit river.sharesPerOwner sender value recipient + value ≤
      river.totalShares := by
    rw [totalShares, ← total_move enough, ← credit_self]
    exact le_total _ recipient
  rw [transferShares, usub_of_le enough, ok_bind]
  exact congrArg (· >>= _) (uadd_of_lt (credited.trans_lt fits))

theorem mintRawShares_ok {owner : Address} {value : Nat}
    (returned : river.mintRawShares owner value = .ok after) :
    after = river.minted owner value := by
  simp only [mintRawShares, bind_eq_ok, uadd_eq_ok, pure_eq_ok] at returned
  obtain ⟨shares, ⟨-, rfl⟩, owned, ⟨-, rfl⟩, rfl⟩ := returned
  rfl

theorem burnRawShares_ok {owner : Address} {value : Nat}
    (returned : river.burnRawShares owner value = .ok after) :
    value ≤ river.shares ∧ value ≤ river.sharesPerOwner owner ∧
      after = river.burnt owner value := by
  simp only [burnRawShares, bind_eq_ok, usub_eq_ok, pure_eq_ok] at returned
  obtain ⟨shares, ⟨supplied, rfl⟩, owned, ⟨enough, rfl⟩, rfl⟩ := returned
  exact ⟨supplied, enough, rfl⟩

theorem burnRawShares_of_le {owner : Address} {value : Nat}
    (supplied : value ≤ river.shares)
    (owned : value ≤ river.sharesPerOwner owner) :
    river.burnRawShares owner value = .ok (river.burnt owner value) := by
  simp only [burnRawShares, usub, if_pos supplied, if_pos owned, ok_bind]
  rfl

/-- Shares are valued where the assets and the product are words. -/
theorem balanceFromShares_eq_ok {amount value : Nat} :
    river.balanceFromShares amount = .ok value ↔
      (river.shares ≠ 0 → river.assets < wordLimit ∧
        amount * river.assets < wordLimit) ∧
      value = river.pool.worth amount := by
  unfold balanceFromShares
  split
  · rename_i none
    rw [pure_eq_ok, pool, Rate.Pool.worth, none, Nat.div_zero]
    exact ⟨fun same => ⟨(absurd rfl ·), same.symm⟩, fun held => held.2.symm⟩
  · rename_i some
    simp only [assetBalance_eq, bind_eq_ok, guarded_eq_ok, umul_eq_ok,
      udiv_eq_ok]
    constructor
    · rintro ⟨assets, ⟨valued, rfl⟩, product, ⟨fits, rfl⟩, -, rfl⟩
      exact ⟨fun _ => ⟨valued, fits⟩, rfl⟩
    · rintro ⟨fits, rfl⟩
      exact ⟨_, ⟨(fits some).1, rfl⟩, _, ⟨(fits some).2, rfl⟩, some, rfl⟩

theorem balanceFromShares_ok {amount value : Nat}
    (returned : river.balanceFromShares amount = .ok value) :
    value = river.pool.worth amount ∧
      (river.shares ≠ 0 → amount * river.assets < wordLimit) := by
  obtain ⟨fits, value_eq⟩ := balanceFromShares_eq_ok.mp returned
  exact ⟨value_eq, fun some => (fits some).2⟩

theorem balanceFromShares_of_fits {amount : Nat}
    (valued : river.assets < wordLimit)
    (fits : amount * river.assets < wordLimit) :
    river.balanceFromShares amount = .ok (river.pool.worth amount) :=
  balanceFromShares_eq_ok.mpr ⟨fun _ => ⟨valued, fits⟩, rfl⟩

theorem balanceFromShares_of_le {amount more worth : Nat}
    (fewer : amount ≤ more)
    (valued : river.balanceFromShares more = .ok worth) :
    river.balanceFromShares amount = .ok (river.pool.worth amount) := by
  obtain ⟨fits, -⟩ := balanceFromShares_eq_ok.mp valued
  refine balanceFromShares_eq_ok.mpr ⟨fun some => ?_, rfl⟩
  exact (fits some).imp_right (Nat.mul_le_mul_right _ fewer).trans_lt

theorem sharesFromBalance_ok {value amount : Nat}
    (returned : river.sharesFromBalance value = .ok amount) :
    amount = river.pool.sharesOf value ∧
      (river.assets ≠ 0 → value * river.shares < wordLimit) := by
  simp only [sharesFromBalance, bind_eq_ok] at returned
  obtain ⟨assets, found, returned⟩ := returned
  have same := assetBalance_ok found
  subst same
  split at returned
  · rename_i none
    simp only [pure_eq_ok] at returned
    refine ⟨?_, fun some => absurd none some⟩
    rw [← returned, Rate.Pool.sharesOf, pool]
    simp [none]
  · simp only [bind_eq_ok, umul_eq_ok, udiv_eq_ok] at returned
    obtain ⟨product, ⟨fits, rfl⟩, -, rfl⟩ := returned
    exact ⟨rfl, fun _ => fits⟩

/-- Shares are minted at the rate before the value was received. -/
theorem mintShares_ok {owner : Address} {value amount : Nat}
    (returned : (river.received value).mintShares owner value =
      .ok (after, amount)) :
    amount = river.sharesFor value ∧
      after = (river.received value).minted owner amount := by
  simp only [mintShares, bind_eq_ok, usub_eq_ok] at returned
  obtain ⟨assets, found, old, ⟨-, rfl⟩, returned⟩ := returned
  have before : assets - value = river.assets := by
    rw [assetBalance_ok found, received_assets, Nat.add_sub_cancel]
  have supply : (river.received value).shares = river.shares := rfl
  rw [before, supply] at returned
  split at returned
  · rename_i first
    simp only [bind_eq_ok, pure_eq_ok, Prod.mk.injEq] at returned
    obtain ⟨next, raw, rfl, rfl⟩ := returned
    exact ⟨(if_pos first).symm, mintRawShares_ok raw⟩
  · rename_i later
    simp only [bind_eq_ok, umul_eq_ok, udiv_eq_ok, pure_eq_ok, Prod.mk.injEq]
      at returned
    obtain ⟨product, ⟨-, rfl⟩, shares, ⟨-, rfl⟩, next, raw, rfl, rfl⟩ :=
      returned
    exact ⟨(if_neg later).symm, mintRawShares_ok raw⟩

theorem approveFor_ok {owner spender : Address} {value : Nat}
    (returned : river.approveFor owner spender value = .ok after) :
    after = river.setApproval owner spender value := by
  simp only [approveFor, bind_eq_ok, pure_eq_ok] at returned
  obtain ⟨-, -, -, -, rfl⟩ := returned
  rfl

theorem spendAllowance_ok {sender owner : Address} {value : Nat}
    (returned : river.spendAllowance sender owner value = .ok after) :
    value ≤ river.approvals owner sender ∧
      (after = river ∨ after = river.setApproval owner sender
        (river.approvals owner sender - value)) := by
  simp only [spendAllowance, bind_eq_ok, require_eq_ok] at returned
  obtain ⟨-, enough, returned⟩ := returned
  split at returned
  · exact ⟨enough, .inr (approveFor_ok returned)⟩
  · simp only [pure_eq_ok] at returned
    exact ⟨enough, .inl returned.symm⟩

theorem transfer_ok {allowlist : Allowlist} {sender recipient : Address}
    {value : Nat}
    (returned : river.transfer allowlist sender recipient value =
      .ok after) :
    value ≤ river.sharesPerOwner sender ∧
      after = river.moved sender recipient value := by
  simp only [transfer, bind_eq_ok] at returned
  obtain ⟨-, -, -, -, -, -, -, -, moving⟩ := returned
  exact transferShares_ok moving

theorem transferFrom_ok {allowlist : Allowlist}
    {sender owner recipient : Address} {value : Nat}
    (returned : river.transferFrom allowlist sender owner recipient value =
      .ok after) :
    value ≠ 0 ∧ value ≤ river.approvals owner sender ∧
      value ≤ river.sharesPerOwner owner ∧
      (after = river.moved owner recipient value ∨
        after = (river.setApproval owner sender
          (river.approvals owner sender - value)).moved owner recipient
            value) := by
  simp only [transferFrom, bind_eq_ok, require_eq_ok] at returned
  obtain ⟨-, -, -, positive, -, funds, -, -, spent, spending, moving⟩ :=
    returned
  obtain ⟨allowance, unchanged | changed⟩ := spendAllowance_ok spending
  · subst unchanged
    exact ⟨positive, allowance, funds, .inl (transferShares_ok moving).2⟩
  · subst changed
    exact ⟨positive, allowance, funds, .inr (transferShares_ok moving).2⟩

/-- A deposit mints to the depositor and moves the shares on. -/
theorem depositFor_ok {allowlist : Allowlist} {sender recipient : Address}
    {value : Nat}
    (returned : river.depositFor allowlist sender recipient value =
      .ok after) :
    river.slashingContainmentMode = false ∧ value ≠ 0 ∧
      after = ((river.received value).minted sender
        (river.sharesFor value)).moved sender recipient
          (river.sharesFor value) := by
  simp only [depositFor, bind_eq_ok, uadd_eq_ok, require_eq_ok] at returned
  obtain ⟨balance, ⟨-, rfl⟩, -, open_, -, positive, toDeposit, ⟨-, rfl⟩,
    returned⟩ := returned
  simp only [onDeposit, bind_eq_ok, Prod.exists] at returned
  obtain ⟨mintedRiver, amount, minting, -, -, returned⟩ := returned
  obtain ⟨rfl, rfl⟩ : amount = river.sharesFor value ∧
      mintedRiver = (river.received value).minted sender amount :=
    mintShares_ok minting
  refine ⟨open_, positive, ?_⟩
  split at returned
  · simp only [bind_eq_ok, require_eq_ok] at returned
    obtain ⟨-, -, moving⟩ := returned
    exact (transferShares_ok moving).2
  · rename_i same
    simp only [pure_eq_ok] at returned
    have equal : sender = recipient := not_not.mp same
    subst equal
    rw [← returned, moved, minted]
    simp only [River.mk.injEq, true_and, and_true]
    exact (move_self (by simp)).symm

/-- What a call of River comes down to. -/
inductive Call.Effect (river : River) (allowlist : Allowlist)
    (sender : Address) : River → Prop where
  | deposit {after : River} {recipient : Address} {value : Nat} :
      river.depositFor allowlist sender recipient value = .ok after →
      Effect river allowlist sender after
  | transfer {after : River} {recipient : Address} {value : Nat} :
      river.transfer allowlist sender recipient value = .ok after →
      Effect river allowlist sender after
  | transferFrom {after : River} {owner recipient : Address} {value : Nat} :
      river.transferFrom allowlist sender owner recipient value =
        .ok after →
      Effect river allowlist sender after
  | approve {spender : Address} {value : Nat} :
      Effect river allowlist sender (river.setApproval sender spender value)
  | configure (config : RiverConfig) :
      Effect river allowlist sender { river with config := config }

section Effect

variable {allowlist : Allowlist} {sender : Address}

theorem setConfig_effect {sanitized : Except Error Unit}
    {config : RiverConfig}
    (returned : river.setConfig sender sanitized config = .ok after) :
    Call.Effect river allowlist sender after := by
  simp only [setConfig, bind_eq_ok, pure_eq_ok] at returned
  obtain ⟨-, -, -, -, rfl⟩ := returned
  exact .configure config

theorem approveFor_effect {spender : Address} {value : Nat}
    (returned : river.approveFor sender spender value = .ok after) :
    Call.Effect river allowlist sender after := by
  rw [approveFor_ok returned]
  exact .approve

theorem Call.apply_effect {call : Call}
    (returned : call.apply river allowlist sender = .ok after) :
    Call.Effect river allowlist sender after := by
  cases call with
  | deposit value => exact .deposit returned
  | depositAndTransfer recipient value =>
      simp only [Call.apply, River.depositAndTransfer, bind_eq_ok] at returned
      obtain ⟨-, -, depositing⟩ := returned
      exact .deposit depositing
  | transfer recipient value => exact .transfer returned
  | transferFrom owner recipient value => exact .transferFrom returned
  | approve spender value => exact approveFor_effect returned
  | increaseAllowance spender additionalValue =>
      simp only [Call.apply, River.increaseAllowance, bind_eq_ok] at returned
      obtain ⟨value, -, approving⟩ := returned
      exact approveFor_effect approving
  | decreaseAllowance spender subtractableValue =>
      simp only [Call.apply, River.decreaseAllowance, bind_eq_ok] at returned
      obtain ⟨value, -, approving⟩ := returned
      exact approveFor_effect approving
  | proposeAdmin newAdmin =>
      simp only [Call.apply, bind_eq_ok, pure_eq_ok] at returned
      obtain ⟨administrable, -, rfl⟩ := returned
      exact .configure _
  | acceptAdmin =>
      simp only [Call.apply, bind_eq_ok, pure_eq_ok] at returned
      obtain ⟨administrable, -, rfl⟩ := returned
      exact .configure _
  | setGlobalFee newFee =>
      simp only [Call.apply, River.setGlobalFee, bind_eq_ok, pure_eq_ok]
        at returned
      obtain ⟨-, -, fee, -, rfl⟩ := returned
      exact .configure _
  | setDailyCommittableLimits dcl => exact setConfig_effect returned
  | setKeeper keeper => exact setConfig_effect returned
  | setAllowlist newAllowlist => exact setConfig_effect returned
  | setCollector newCollector => exact setConfig_effect returned
  | setELFeeRecipient newELFeeRecipient => exact setConfig_effect returned
  | setCoverageFund newCoverageFund => exact setConfig_effect returned
  | setMetadataURI metadataURI => exact setConfig_effect returned
  | setOracle oracle => exact setConfig_effect returned
  | setCLSpec newValue => exact setConfig_effect returned
  | setReportBounds newValue => exact setConfig_effect returned

end Effect

/-- What a call outside a report may do to River.  The `locked` account never
gives shares or approvals away. -/
inductive Move (locked : Address) : River → River → Prop where
  | mint {river : River} (owner : Address) (value : Nat) :
      Move locked river
        ((river.received value).minted owner (river.sharesFor value))
  | moved {river : River} {sender recipient : Address} {value : Nat} :
      sender ≠ locked → value ≤ river.sharesPerOwner sender →
      Move locked river (river.moved sender recipient value)
  | approve {river : River} {owner spender : Address} {value : Nat} :
      owner ≠ locked → Move locked river (river.setApproval owner spender value)
  | configure {river : River} (config : RiverConfig) :
      Move locked river { river with config := config }

abbrev Moves (locked : Address) : River → River → Prop :=
  Relation.ReflTransGen (Move locked)

section Moves

variable {locked : Address}

theorem depositFor_moves {allowlist : Allowlist} {sender recipient : Address}
    {value : Nat} (free : sender ≠ locked ∨ sender = recipient)
    (returned : river.depositFor allowlist sender recipient value =
      .ok after) : Moves locked river after := by
  obtain ⟨-, -, rfl⟩ := depositFor_ok returned
  have enough : river.sharesFor value ≤ ((river.received value).minted sender
      (river.sharesFor value)).sharesPerOwner sender := by
    simp [minted]
  have minting : Move locked river ((river.received value).minted sender
      (river.sharesFor value)) := .mint sender value
  by_cases same : sender = recipient
  · subst same
    rw [moved, move_self enough]
    exact .single minting
  · exact (Relation.ReflTransGen.single minting).tail
      (.moved (free.resolve_right same) enough)

theorem transferFrom_moves {allowlist : Allowlist}
    {sender owner recipient : Address} {value : Nat} (free : owner ≠ locked)
    (returned : river.transferFrom allowlist sender owner recipient value =
      .ok after) : Moves locked river after := by
  obtain ⟨-, -, funds, rfl | rfl⟩ := transferFrom_ok returned
  · exact .single (.moved free funds)
  · exact (Relation.ReflTransGen.single (.approve free)).tail
      (.moved free funds)

theorem transferFrom_owner {allowlist : Allowlist}
    {sender owner recipient : Address} {value : Nat}
    (locks : ∀ spender, river.approvals locked spender = 0)
    (returned : river.transferFrom allowlist sender owner recipient value =
      .ok after) : owner ≠ locked := by
  obtain ⟨positive, allowance, -, -⟩ := transferFrom_ok returned
  rintro rfl
  rw [locks sender] at allowance
  omega

theorem Call.apply_moves {call : Call} {allowlist : Allowlist}
    {sender : Address} (free : sender ≠ locked)
    (locks : ∀ spender, river.approvals locked spender = 0)
    (returned : call.apply river allowlist sender = .ok after) :
    Moves locked river after := by
  cases Call.apply_effect returned with
  | deposit depositing => exact depositFor_moves (.inl free) depositing
  | transfer moving =>
      obtain ⟨enough, rfl⟩ := transfer_ok moving
      exact .single (.moved free enough)
  | transferFrom moving =>
      exact transferFrom_moves (transferFrom_owner locks moving) moving
  | approve => exact .single (.approve free)
  | configure config => exact .single (.configure config)

end Moves

end River

end RiverProtocol
