import RiverProtocol.System.Books

/-!
# The value of a share

Between reports no operation lowers what a share is worth.  The withdrawal
step of a report lowers it exactly when it serves only part of the demand and
rounds the burnt shares down.
-/

namespace RiverProtocol

open Checked Outcome

open RedeemManager (alice)

open Rate (Pool)

namespace River

variable {locked : Address} {river after : River}

/-- Deposits mint at most their worth. -/
theorem rises_of_mint {owner : Address} {value : Nat}
    (supplied : 0 < river.shares) :
    Pool.Rises river.pool
      ((river.received value).minted owner (river.sharesFor value)).pool := by
  have bound : river.sharesFor value * river.assets ≤
      value * river.shares := by
    unfold sharesFor
    split
    · rename_i first
      have none : river.assets = 0 := first.resolve_right (by omega)
      rw [none]
      exact Nat.zero_le _
    · exact Pool.mint_bound _ _ _
  have same : ((river.received value).minted owner
      (river.sharesFor value)).pool =
      ⟨river.assets + value, river.shares + river.sharesFor value⟩ := by
    rw [pool, minted_assets, received_assets, minted_shares, received_shares]
  rw [same]
  generalize river.sharesFor value = minted at bound ⊢
  exact ⟨Pool.below_of_mint bound, Nat.le_add_right _ _⟩

theorem Move.rises (move : Move locked river after)
    (supplied : 0 < river.shares) : Pool.Rises river.pool after.pool := by
  cases move with
  | mint owner value => exact rises_of_mint supplied
  | moved free enough =>
      rw [pool, pool, moved_assets]
      exact Pool.Rises.refl _
  | approve free => exact Pool.Rises.refl _
  | configure config => exact Pool.Rises.refl _

end River

namespace System

variable {deployment : Deployment} {system after : System}

theorem Move.rises (sound : Sound deployment system)
    (move : Move deployment system after)
    (supplied : 0 < system.river.shares) :
    Pool.Rises system.river.pool after.river.pool := by
  cases move with
  | river move => exact move.rises supplied
  | request free enough demand =>
      rw [River.pool, River.pool, River.moved_assets]
      exact Pool.Rises.refl _
  | claim demand => exact Pool.Rises.refl _
  | fund picked enough held =>
      rw [River.pool, River.pool, sound.river.funded_assets enough]
      exact Pool.Rises.refl _
  | exits returned => exact Pool.Rises.refl _
  | manage returned => exact Pool.Rises.refl _
  | other wlseth allowlists balance => exact Pool.Rises.refl _

theorem Operation.rises (sound : Sound deployment system)
    (operation : Operation deployment system after)
    (supplied : 0 < system.river.shares) :
    Pool.Rises system.river.pool after.river.pool := by
  have moves := operation.moves sound.river.no_approval
  clear operation
  induction moves with
  | refl => exact Pool.Rises.refl _
  | tail run move induction =>
      exact induction.trans supplied (move.rises (sound.of_moves run)
        (supplied.trans_le induction.shares_le))

theorem rises_of_operations (sound : Sound deployment system)
    (supplied : 0 < system.river.shares)
    (run : Relation.ReflTransGen (Operation deployment) system after) :
    Sound deployment after ∧
      Pool.Rises system.river.pool after.river.pool := by
  induction run with
  | refl => exact ⟨sound, Pool.Rises.refl _⟩
  | tail _ operation induction =>
      obtain ⟨soundMiddle, rises⟩ := induction
      have next := operation.rises soundMiddle
        (supplied.trans_le rises.shares_le)
      exact ⟨soundMiddle.of_operation operation, rises.trans supplied next⟩

/-- No operation between reports lowers the rate, and no number of them
lowers the underlying balance of a fixed number of shares. -/
theorem exchange_rate_never_falls (reachable : Reachable deployment system)
    (supplied : 0 < system.river.shares) :
    (∀ (after : System) (assets assetsAfter : Nat),
      Operation deployment system after →
      system.river.assetBalance = .ok assets →
      after.river.assetBalance = .ok assetsAfter →
      assets * after.river.shares ≤ assetsAfter * system.river.shares) ∧
    ∀ (after : System) (shares value valueAfter : Nat),
      Relation.ReflTransGen (Operation deployment) system after →
      system.river.balanceFromShares shares = .ok value →
      after.river.balanceFromShares shares = .ok valueAfter →
      value ≤ valueAfter := by
  have sound := Sound.of_reachable reachable
  refine ⟨?_, ?_⟩
  · intro after assets assetsAfter operation valued valuedAfter
    rw [River.assetBalance_ok valued, River.assetBalance_ok valuedAfter]
    exact (operation.rises sound supplied).below
  · intro after shares value valueAfter run valued valuedAfter
    obtain ⟨-, rises⟩ := rises_of_operations sound supplied run
    rw [(River.balanceFromShares_ok valued).1,
      (River.balanceFromShares_ok valuedAfter).1]
    exact rises.below.worth_le supplied
      (supplied.trans_le rises.shares_le) shares

theorem exchange_rate_never_falls_sample :
    ∃ system after assets assetsAfter, sampleRun = .ok system ∧
      Operation sample system after ∧
      system.river.assetBalance = .ok assets ∧
      after.river.assetBalance = .ok assetsAfter ∧
      after.river.shares = depositSize + 7 ∧
      assets * after.river.shares ≤ assetsAfter * system.river.shares := by
  have checked : returns sampleRun (fun system =>
      0 < system.river.shares ∧
      returns system.river.assetBalance (fun _ => true) ∧
      returns ((River.Call.deposit 7).apply system.river system.allowlist
        alice) fun river => river.shares = depositSize + 7 ∧
          returns river.assetBalance fun _ => true) = true := by
    decide +kernel
  obtain ⟨system, returned, facts⟩ := returns_iff.mp checked
  obtain ⟨supplied, valued, deposited⟩ := of_decide_eq_true facts
  obtain ⟨assets, valued, -⟩ := returns_iff.mp valued
  obtain ⟨river, depositing, facts⟩ := returns_iff.mp deposited
  obtain ⟨shares, valuedAfter⟩ := of_decide_eq_true facts
  obtain ⟨assetsAfter, valuedAfter, -⟩ := returns_iff.mp valuedAfter
  have external : sample.External alice := by decide
  have operation : Operation sample system { system with river := river } :=
    .river external depositing
  have rate := (exchange_rate_never_falls (sampleRun_reachable returned)
    supplied).1 _ assets assetsAfter operation valued valuedAfter
  exact ⟨system, _, assets, assetsAfter, returned, operation, valued,
    valuedAfter, shares, rate⟩

/-- The ether a withdrawal step sends to the redeem manager. -/
def sentEth (prepared withdrawn : System) : Nat :=
  withdrawn.redeemManager.balance - prepared.redeemManager.balance

/-- The shares a withdrawal step burns. -/
def burntShares (prepared withdrawn : System) : Nat :=
  prepared.river.shares - withdrawn.river.shares

theorem Withdrawal.sentEth_eq {amount eth : Nat}
    (withdrawal : Withdrawal deployment system amount eth after) :
    sentEth system after = eth := by
  obtain ⟨-, -, height, -, manager⟩ :=
    RedeemManager.reportWithdraw_ok withdrawal.reported
  rw [sentEth, manager]
  exact Nat.add_sub_cancel_left _ _

theorem Withdrawal.burntShares_eq {amount eth : Nat}
    (withdrawal : Withdrawal deployment system amount eth after) :
    burntShares system after = amount := by
  have shares : after.river.shares = system.river.shares - amount := by
    rw [withdrawal.after_eq]
    rfl
  rw [burntShares, shares]
  exact Nat.sub_sub_self withdrawal.minted

/-- The demand is served in full, or the redeem balance buys a whole number
of shares. -/
def WholeSupply (prepared : System) : Prop :=
  prepared.river.balanceToRedeem <
      prepared.river.pool.worth prepared.redeemManager.redeemDemand →
    prepared.river.assets ∣
      prepared.river.balanceToRedeem * prepared.river.shares

theorem Withdrawal.backed_iff {amount eth : Nat}
    (withdrawal : Withdrawal deployment system amount eth after) :
    eth * system.river.shares ≤ amount * system.river.assets ↔
      WholeSupply system := by
  rcases suppliedDemand_ok withdrawal.supplied with
    ⟨enough, rfl, rfl⟩ | ⟨limited, rfl, rfl⟩
  · constructor
    · intro _ limited
      exact absurd enough (Nat.not_le.mpr limited)
    · intro _
      exact Pool.worth_bound system.river.pool _
  · constructor
    · intro bound _
      exact (Pool.sharesOf_bound_iff system.river.pool _).mp bound
    · intro whole
      exact (Pool.sharesOf_bound_iff system.river.pool _).mpr (whole limited)

/-- A backed withdrawal does not lower the rate. -/
theorem Withdrawal.below {amount eth : Nat}
    (withdrawal : Withdrawal deployment system amount eth after)
    (bound : eth * system.river.shares ≤ amount * system.river.assets) :
    system.river.pool.Below after.river.pool := by
  have assets : after.river.assets + eth = system.river.assets := by
    rw [withdrawal.after_eq]
    exact River.withdrawn_assets withdrawal.eth_le
  have shares : after.river.shares = system.river.shares - amount := by
    rw [withdrawal.after_eq]
    rfl
  have held : eth ≤ system.river.assets := by omega
  have rest : after.river.assets = system.river.assets - eth := by omega
  unfold River.pool
  rw [rest, shares]
  exact Pool.below_of_burn held withdrawal.minted bound

/-- Where nothing is sent, the supply is whole. -/
theorem wholeSupply_of_nothing
    (nothing : system.river.assets = 0 ∨ system.river.shares = 0 ∨
      ∃ amount, system.suppliedDemand = .ok (amount, 0)) :
    WholeSupply system := by
  intro limited
  have worthless : system.river.assets = 0 ∨ system.river.shares = 0 →
      system.river.pool.worth system.redeemManager.redeemDemand = 0 := by
    unfold Pool.worth River.pool
    rintro (none | none)
    · rw [none, Nat.mul_zero, Nat.zero_div]
    · rw [none, Nat.div_zero]
  rcases nothing with none | none | ⟨amount, supplied⟩
  · rw [worthless (.inl none)] at limited
    exact absurd limited (Nat.not_lt_zero _)
  · rw [worthless (.inr none)] at limited
    exact absurd limited (Nat.not_lt_zero _)
  · rcases suppliedDemand_ok supplied with ⟨enough, -, -⟩ | ⟨-, -, none⟩
    · exact absurd enough (Nat.not_le.mpr limited)
    · rw [← none, Nat.zero_mul]
      exact Nat.dvd_zero _

/-- The withdrawal step is backed by the shares it burns, and does not lower
the rate, exactly when the supply is whole. -/
theorem withdrawal_backed_iff {prepared withdrawn : System}
    (withdrawing : prepared.reportWithdrawToRedeemManager deployment =
      .ok withdrawn) :
    (sentEth prepared withdrawn * prepared.river.shares ≤
        burntShares prepared withdrawn * prepared.river.assets ∧
      prepared.river.pool.Below withdrawn.river.pool) ↔
      WholeSupply prepared := by
  rcases reportWithdrawToRedeemManager_ok withdrawing with
    ⟨rfl, nothing⟩ | ⟨amount, eth, withdrawal⟩
  · constructor
    · intro _
      exact wholeSupply_of_nothing nothing
    · intro _
      refine ⟨?_, Pool.Below.refl _⟩
      rw [sentEth, Nat.sub_self, Nat.zero_mul]
      exact Nat.zero_le _
  · rw [withdrawal.sentEth_eq, withdrawal.burntShares_eq,
      ← withdrawal.backed_iff]
    constructor
    · exact And.left
    · intro bound
      exact ⟨bound, withdrawal.below bound⟩

/-- The next report of the sample run collects one wei of fees, moves it to
the redeem balance and serves it. -/
def weiReport (system : System) :
    Except Error (System × River.ReportIncrease × ReportingTrace) :=
  system.prepareReport (feesUpTo 1) 1000000 (.ofNat 11) (quietReport 675 true)

theorem weiReport_accepted :
    ∃ system prepared increase trace withdrawn after, sampleRun = .ok system ∧
      weiReport system = .ok (prepared, increase, trace) ∧
      prepared.reportWithdrawToRedeemManager sample = .ok withdrawn ∧
      prepared.finishReport sample increase.timeElapsedSinceLastReport false =
        .ok after ∧
      sentEth prepared withdrawn = 1 ∧ burntShares prepared withdrawn = 0 ∧
      prepared.river.shares = depositSize := by
  have checked : returns sampleRun (fun system =>
      returns (weiReport system) fun prepared =>
        returns (prepared.1.finishReport sample
          prepared.2.1.timeElapsedSinceLastReport false) (fun _ => true) &&
        returns (prepared.1.reportWithdrawToRedeemManager sample)
          fun withdrawn => sentEth prepared.1 withdrawn = 1 ∧
            burntShares prepared.1 withdrawn = 0 ∧
            prepared.1.river.shares = depositSize) = true := by
    decide +kernel
  obtain ⟨system, returned, reported⟩ := returns_iff.mp checked
  obtain ⟨⟨prepared, increase, trace⟩, preparing, answers⟩ :=
    returns_iff.mp reported
  obtain ⟨finished, withdrew⟩ := Bool.and_eq_true_iff.mp answers
  obtain ⟨after, finishing, -⟩ := returns_iff.mp finished
  obtain ⟨withdrawn, withdrawing, facts⟩ := returns_iff.mp withdrew
  exact ⟨system, prepared, increase, trace, withdrawn, after, returned,
    preparing, withdrawing, finishing, of_decide_eq_true facts⟩

theorem withdrawal_backed_iff_weiReport :
    ∃ system prepared increase trace, sampleRun = .ok system ∧
      weiReport system = .ok (prepared, increase, trace) ∧
      ¬ WholeSupply prepared := by
  obtain ⟨system, prepared, increase, trace, withdrawn, after, returned,
    preparing, withdrawing, -, sent, burnt, supply⟩ := weiReport_accepted
  refine ⟨system, prepared, increase, trace, returned, preparing, ?_⟩
  rw [← withdrawal_backed_iff withdrawing, sent, burnt, supply]
  rintro ⟨backed, -⟩
  rw [Nat.zero_mul] at backed
  exact absurd backed (by decide)

/-- A wei is sent to the redeem manager for no shares. -/
theorem withdrawal_not_backed :
    ¬ ∀ (deployment : Deployment) (funds : ExternalFunds) (timestamp : Nat)
      (sender : Address) (report : ConsensusLayerReport)
      (system prepared withdrawn after : System)
      (increase : River.ReportIncrease) (trace : ReportingTrace),
      Reachable deployment system →
      system.prepareReport funds timestamp sender report =
        .ok (prepared, increase, trace) →
      prepared.reportWithdrawToRedeemManager deployment = .ok withdrawn →
      prepared.finishReport deployment increase.timeElapsedSinceLastReport
        report.slashingContainmentMode = .ok after →
      sentEth prepared withdrawn * prepared.river.shares ≤
        burntShares prepared withdrawn * prepared.river.assets := by
  intro backed
  obtain ⟨system, prepared, increase, trace, withdrawn, after, returned,
    preparing, withdrawing, finishing, sent, burnt, supply⟩ :=
    weiReport_accepted
  have bound := backed sample _ _ _ _ system prepared withdrawn after increase
    trace (sampleRun_reachable returned) preparing withdrawing finishing
  rw [sent, burnt, supply, Nat.zero_mul] at bound
  exact absurd bound (by decide)

end System

end RiverProtocol
