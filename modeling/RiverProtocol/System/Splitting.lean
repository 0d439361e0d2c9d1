import RiverProtocol.System.Books

/-!
# Splitting a deposit gains nothing

Deposits made one after another never lower the value of a share, so together
they mint at most what one deposit of their sum mints.  A single deposit loses
less than one share and one wei to the rounding.
-/

namespace RiverProtocol

open Checked Outcome

open RedeemManager (alice)

namespace River

/-- A call that deposits `value` wei. -/
structure Deposit where
  sender : Address
  recipient : Address
  value : Nat

/-- Deposits made one after another. -/
def depositEach (allowlist : Allowlist) :
    List Deposit → River → Except Error River
  | [], river => return river
  | deposit :: rest, river => do
    let river ← river.depositFor allowlist deposit.sender deposit.recipient
      deposit.value
    depositEach allowlist rest river

variable {river after : River} {allowlist : Allowlist}

theorem sharesFor_eq {value : Nat} (valued : 0 < river.assets)
    (supplied : 0 < river.shares) :
    river.sharesFor value = river.pool.sharesOf value := by
  rw [sharesFor, if_neg (by omega)]
  rfl

theorem depositFor_pool {sender recipient : Address} {value : Nat}
    (valued : 0 < river.assets) (supplied : 0 < river.shares)
    (returned : river.depositFor allowlist sender recipient value =
      .ok after) :
    after.pool = ⟨river.pool.assets + value,
      river.pool.shares + river.pool.sharesOf value⟩ := by
  obtain ⟨-, -, rfl⟩ := depositFor_ok returned
  rw [pool, moved_assets, minted_assets, received_assets,
    sharesFor_eq valued supplied]
  rfl

/-- Deposits add their values and do not lower the value of a share. -/
theorem depositEach_pool {deposits : List Deposit} (valued : 0 < river.assets)
    (supplied : 0 < river.shares)
    (returned : depositEach allowlist deposits river = .ok after) :
    after.assets = river.assets + (deposits.map Deposit.value).sum ∧
      Rate.Pool.Rises river.pool after.pool := by
  induction deposits generalizing river with
  | nil =>
      simp only [depositEach, pure_eq_ok] at returned
      subst returned
      exact ⟨(Nat.add_zero _).symm, .refl _⟩
  | cons deposit rest induction =>
      simp only [depositEach, bind_eq_ok] at returned
      obtain ⟨middle, depositing, returned⟩ := returned
      have middleEq := depositFor_pool valued supplied depositing
      obtain ⟨assets, shares⟩ : middle.assets = river.assets + deposit.value ∧
          middle.shares = river.shares + river.pool.sharesOf deposit.value :=
        Rate.Pool.mk.inj middleEq
      obtain ⟨total, rises⟩ := induction (assets ▸ Nat.add_pos_left valued _)
        (shares ▸ Nat.add_pos_left supplied _) returned
      have first : Rate.Pool.Rises river.pool middle.pool := by
        rw [middleEq]
        exact ⟨Rate.Pool.below_of_mint (Nat.div_mul_le_self _ _),
          Nat.le_add_right _ _⟩
      refine ⟨?_, first.trans supplied rises⟩
      rw [total, assets, List.map_cons, List.sum_cons, Nat.add_assoc]

/-- Several deposits mint at most what one deposit of their sum buys, and the
shares of one deposit are worth its value up to one share and one wei. -/
theorem splitting_gains_nothing (allowlist : Allowlist) {assets : Nat}
    (valued : river.assetBalance = .ok assets) (positive : 0 < assets)
    (supplied : 0 < river.shares) :
    (∀ deposits after, depositEach allowlist deposits river = .ok after →
      after.shares - river.shares ≤
        (deposits.map Deposit.value).sum * river.shares / assets ∧
      ∀ sender recipient single,
        river.depositFor allowlist sender recipient
          (deposits.map Deposit.value).sum = .ok single →
        after.shares - river.shares ≤ single.shares - river.shares) ∧
    ∀ sender recipient value single worth,
      river.depositFor allowlist sender recipient value = .ok single →
      single.balanceFromShares (single.shares - river.shares) = .ok worth →
      worth ≤ value ∧
        (worth < value → (value - worth - 1) * river.shares < assets) := by
  obtain rfl := assetBalance_ok valued
  refine ⟨?_, ?_⟩
  · intro deposits after returned
    obtain ⟨total, rises⟩ := depositEach_pool positive supplied returned
    have few : after.shares - river.shares ≤
        river.pool.sharesOf (deposits.map Deposit.value).sum := by
      refine Rate.Pool.Below.minted_le positive ?_
      have grown : river.pool.shares + (after.shares - river.shares) =
          after.shares := Nat.add_sub_cancel' rises.shares_le
      have below := rises.below
      rw [grown]
      rwa [pool, pool, total] at below
    refine ⟨few, ?_⟩
    intro sender recipient single depositing
    obtain ⟨-, minted⟩ := Rate.Pool.mk.inj
      (depositFor_pool positive supplied depositing)
    rw [minted]
    exact few.trans_eq (Nat.add_sub_cancel_left _ _).symm
  · intro sender recipient value single worth returned worthy
    have singleEq := depositFor_pool positive supplied returned
    obtain ⟨grown, minted⟩ := Rate.Pool.mk.inj singleEq
    have sharesEq : single.shares - river.shares =
        river.pool.sharesOf value := by
      rw [minted]
      exact Nat.add_sub_cancel_left _ _
    rw [sharesEq] at worthy
    obtain ⟨rfl, -⟩ := balanceFromShares_ok worthy
    rw [singleEq]
    refine ⟨Rate.Pool.worth_sharesOf_le _ _, ?_⟩
    intro less
    exact Rate.Pool.loss_lt river.pool value positive supplied (by omega)

/-- Three shares of seven wei. -/
def sampleSeven : River :=
  { (System.fresh System.sample).river with
    balance := 7
    balanceToDeposit := 7
    shares := 3
    sharesPerOwner := Function.update (fun _ => 0) alice 3 }

/-- Five deposits of one wei mint nothing, and one of five wei mints two
shares. -/
theorem splitting_gains_nothing_sample : ∃ split single worth,
    depositEach System.sampleAllowlist (List.replicate 5 ⟨alice, alice, 1⟩)
      sampleSeven = .ok split ∧
    sampleSeven.depositFor System.sampleAllowlist alice alice 5 =
      .ok single ∧
    single.balanceFromShares 2 = .ok worth ∧
    split.shares - 3 ≤ single.shares - 3 ∧ worth ≤ 5 := by
  have checked : (returns (depositEach System.sampleAllowlist
        (List.replicate 5 ⟨alice, alice, 1⟩) sampleSeven) (fun _ => true) &&
      returns (sampleSeven.depositFor System.sampleAllowlist alice alice 5)
        (fun single => decide (single.shares = 5) &&
          returns (single.balanceFromShares 2) fun _ => true)) = true := by
    decide +kernel
  obtain ⟨splits, singles⟩ := Bool.and_eq_true_iff.mp checked
  obtain ⟨split, splitting, -⟩ := returns_iff.mp splits
  obtain ⟨single, depositing, facts⟩ := returns_iff.mp singles
  obtain ⟨five, valuing⟩ := Bool.and_eq_true_iff.mp facts
  obtain ⟨worth, valued, -⟩ := returns_iff.mp valuing
  have two : single.shares - sampleSeven.shares = 2 := by
    rw [of_decide_eq_true five]
    rfl
  have seven : sampleSeven.assetBalance = .ok 7 := by decide +kernel
  obtain ⟨atMost, bounds⟩ := splitting_gains_nothing System.sampleAllowlist
    seven (by decide) (by decide)
  refine ⟨split, single, worth, splitting, depositing, valued, ?_, ?_⟩
  · exact (atMost _ split splitting).2 alice alice single depositing
  · exact (bounds alice alice 5 single worth depositing (two ▸ valued)).1

end River

end RiverProtocol
