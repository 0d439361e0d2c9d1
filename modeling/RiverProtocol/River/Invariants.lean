import RiverProtocol.River.Report

/-!
# The books of River

The shares of all owners add up to the supply, and the ether River holds is
what its three balances say.  Each move and each stage of a report keeps both.
-/

namespace RiverProtocol

open Checked Balances

namespace River

structure Sound (locked : Address) (river : River) : Prop where
  shares_total : river.totalShares = river.shares
  no_approval : ∀ spender, river.approvals locked spender = 0
  ledger : river.balance = river.balanceToDeposit + river.committedBalance +
    river.balanceToRedeem
  deposits : depositSize ∣ river.committedBalance
  counted : river.lastConsensusLayerReport.validatorsCount ≤
    river.depositedValidatorCount

/-- River after funding `count` validators. -/
def funded (river : River) (count : Nat) : River :=
  { river with
    balance := river.balance - depositSize * count
    committedBalance := river.committedBalance - depositSize * count
    depositedValidatorCount := river.depositedValidatorCount + count }

namespace Sound

variable {locked : Address} {river after : River}

theorem received (sound : Sound locked river) (value : Nat) :
    Sound locked (river.received value) := by
  refine ⟨sound.shares_total, sound.no_approval, ?_, sound.deposits,
    sound.counted⟩
  have ledger := sound.ledger
  simp only [River.received]
  omega

theorem minted (sound : Sound locked river) (owner : Address) (value : Nat) :
    Sound locked (river.minted owner value) := by
  refine ⟨?_, sound.no_approval, sound.ledger, sound.deposits,
    sound.counted⟩
  have shares := sound.shares_total
  simp only [totalShares, River.minted, total_credit] at shares ⊢
  rw [shares]

theorem moved {sender recipient : Address} {value : Nat}
    (sound : Sound locked river)
    (enough : value ≤ river.sharesPerOwner sender) :
    Sound locked (river.moved sender recipient value) := by
  refine ⟨?_, sound.no_approval, sound.ledger, sound.deposits,
    sound.counted⟩
  calc
    (river.moved sender recipient value).totalShares = river.totalShares :=
      total_move enough
    _ = river.shares := sound.shares_total

theorem approve {owner spender : Address} {value : Nat}
    (sound : Sound locked river) (free : owner ≠ locked) :
    Sound locked (river.setApproval owner spender value) := by
  refine ⟨sound.shares_total, ?_, sound.ledger, sound.deposits,
    sound.counted⟩
  intro account
  simp only [setApproval]
  rw [Function.update_of_ne (Ne.symm free)]
  exact sound.no_approval account

theorem of_move (sound : Sound locked river)
    (move : Move locked river after) : Sound locked after := by
  cases move with
  | mint owner value => exact (sound.received value).minted _ _
  | moved free enough => exact sound.moved enough
  | approve free => exact sound.approve free
  | configure config =>
      exact ⟨sound.shares_total, sound.no_approval, sound.ledger,
        sound.deposits, sound.counted⟩

theorem funded {count : Nat} (sound : Sound locked river)
    (enough : depositSize * count ≤ river.committedBalance) :
    Sound locked (river.funded count) := by
  have ledger := sound.ledger
  refine ⟨sound.shares_total, sound.no_approval, ?_, ?_,
    sound.counted.trans (Nat.le_add_right _ _)⟩
  · simp only [River.funded]
    generalize depositSize * count = amount at enough ⊢
    omega
  · exact Nat.dvd_sub sound.deposits (Nat.dvd_mul_right _ _)

theorem reported {skimmedEth exitedEth : Nat}
    {report : StoredConsensusLayerReport} (sound : Sound locked river)
    (counted : report.validatorsCount ≤ river.depositedValidatorCount) :
    Sound locked (river.reported skimmedEth exitedEth report) := by
  have ledger := sound.ledger
  refine ⟨sound.shares_total, sound.no_approval, ?_, sound.deposits,
    counted⟩
  simp only [River.reported]
  omega

theorem rebalanced {amount : Nat} (sound : Sound locked river)
    (held : amount ≤ river.balanceToDeposit) :
    Sound locked (river.rebalanced amount) := by
  have ledger := sound.ledger
  refine ⟨sound.shares_total, sound.no_approval, ?_, sound.deposits,
    sound.counted⟩
  simp only [River.rebalanced]
  omega

theorem withdrawn {owner : Address} {amount eth : Nat}
    (sound : Sound locked river) (held : eth ≤ river.balanceToRedeem)
    (owned : amount ≤ river.sharesPerOwner owner) :
    Sound locked (river.withdrawn owner amount eth) := by
  have ledger := sound.ledger
  have shares := sound.shares_total
  refine ⟨?_, sound.no_approval, ?_, sound.deposits, sound.counted⟩
  · have burnt := total_debit owned
    simp only [totalShares, River.withdrawn] at shares ⊢
    omega
  · simp only [River.withdrawn]
    omega

theorem skimmed (sound : Sound locked river) :
    Sound locked river.skimmed := by
  have ledger := sound.ledger
  refine ⟨sound.shares_total, sound.no_approval, ?_, sound.deposits,
    sound.counted⟩
  simp only [River.skimmed]
  omega

theorem committed {count : Nat} (sound : Sound locked river)
    (held : depositSize * count ≤ river.balanceToDeposit) :
    Sound locked (river.committed count) := by
  have ledger := sound.ledger
  refine ⟨sound.shares_total, sound.no_approval, ?_, ?_, sound.counted⟩
  · simp only [River.committed]
    generalize depositSize * count = amount at held ⊢
    omega
  · exact Nat.dvd_add sound.deposits (Nat.dvd_mul_right _ _)

theorem owned_le (sound : Sound locked river) (owner : Address) :
    river.sharesPerOwner owner ≤ river.shares := by
  rw [← sound.shares_total]
  exact le_total _ _

/-- Funding validators moves ether from the committed balance to the pending
validators. -/
theorem funded_assets {count : Nat} (sound : Sound locked river)
    (enough : depositSize * count ≤ river.committedBalance) :
    (river.funded count).assets = river.assets := by
  have counted := sound.counted
  have pending : (river.depositedValidatorCount + count -
      river.lastConsensusLayerReport.validatorsCount) * depositSize =
      (river.depositedValidatorCount -
        river.lastConsensusLayerReport.validatorsCount) * depositSize +
        depositSize * count := by
    rw [Nat.sub_add_comm counted, Nat.add_mul, Nat.mul_comm count]
  simp only [assets, River.funded, pending]
  generalize depositSize * count = amount at enough ⊢
  generalize (river.depositedValidatorCount -
    river.lastConsensusLayerReport.validatorsCount) * depositSize = before
  omega

end Sound

end River

end RiverProtocol
