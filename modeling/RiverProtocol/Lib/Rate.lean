import Mathlib.Algebra.BigOperators.Ring.Finset
import Mathlib.Algebra.Order.BigOperators.Group.Finset
import Mathlib.Algebra.Order.Ring.Nat
import Mathlib.Tactic.Common
import Mathlib.Tactic.Linarith
import Mathlib.Tactic.Ring

/-!
# The value of one share

A pool holds `assets` against `shares`.  One pool is worth at least as much
for each share as another when the cross products compare; no division is
involved.  The rules say how minting and burning with a rounded amount move
the rate.
-/

namespace Rate

/-- A pool: what it holds and how many shares it is split in. -/
structure Pool where
  assets : Nat
  shares : Nat
  deriving DecidableEq, Repr

namespace Pool

/-- Each share of `after` is worth at least one of `before`. -/
def Below (before after : Pool) : Prop :=
  before.assets * after.shares ≤ after.assets * before.shares

instance (before after : Pool) : Decidable (Below before after) :=
  inferInstanceAs (Decidable (_ ≤ _))

/-- What a number of shares is worth, rounded down. -/
def worth (pool : Pool) (amount : Nat) : Nat :=
  amount * pool.assets / pool.shares

/-- How many shares a value buys, rounded down. -/
def sharesOf (pool : Pool) (value : Nat) : Nat :=
  value * pool.shares / pool.assets

variable {before middle after : Pool} {value minted : Nat}

theorem Below.refl (pool : Pool) : Below pool pool := Nat.le_refl _

theorem Below.trans (positive : 0 < middle.shares)
    (first : Below before middle) (second : Below middle after) :
    Below before after := by
  unfold Below at first second ⊢
  apply Nat.le_of_mul_le_mul_right _ positive
  calc
    before.assets * after.shares * middle.shares =
        before.assets * middle.shares * after.shares := by ring
    _ ≤ middle.assets * before.shares * after.shares :=
      Nat.mul_le_mul_right _ first
    _ = middle.assets * after.shares * before.shares := by ring
    _ ≤ after.assets * middle.shares * before.shares :=
      Nat.mul_le_mul_right _ second
    _ = after.assets * before.shares * middle.shares := by ring

/-- A higher rate makes every number of shares worth at least as much. -/
theorem Below.worth_le (below : Below before after)
    (positive : 0 < before.shares) (stays : 0 < after.shares)
    (amount : Nat) : before.worth amount ≤ after.worth amount := by
  unfold Below at below
  unfold worth
  rw [Nat.le_div_iff_mul_le stays]
  apply Nat.le_of_mul_le_mul_right _ positive
  have rounded := Nat.div_mul_le_self (amount * before.assets) before.shares
  calc
    amount * before.assets / before.shares * after.shares * before.shares =
        amount * before.assets / before.shares * before.shares *
          after.shares := by ring
    _ ≤ amount * before.assets * after.shares :=
      Nat.mul_le_mul_right _ rounded
    _ = amount * (before.assets * after.shares) := by ring
    _ ≤ amount * (after.assets * before.shares) :=
      Nat.mul_le_mul_left _ below
    _ = amount * after.assets * before.shares := by ring

/-- The rate does not fall and no shares are burnt. -/
structure Rises (before after : Pool) : Prop where
  below : Below before after
  shares_le : before.shares ≤ after.shares

theorem Rises.refl (pool : Pool) : Rises pool pool :=
  ⟨Below.refl pool, Nat.le_refl _⟩

theorem Rises.trans (positive : 0 < before.shares)
    (first : Rises before middle) (second : Rises middle after) :
    Rises before after :=
  ⟨first.below.trans (positive.trans_le first.shares_le) second.below,
    first.shares_le.trans second.shares_le⟩

theorem sharesOf_le {pool : Pool} {amount : Nat}
    (covered : value ≤ pool.worth amount) : pool.sharesOf value ≤ amount := by
  unfold sharesOf worth at *
  by_cases none : pool.assets = 0
  · rw [none, Nat.div_zero]
    exact Nat.zero_le _
  · apply Nat.div_le_of_le_mul
    calc
      value * pool.shares ≤
          amount * pool.assets / pool.shares * pool.shares :=
        Nat.mul_le_mul_right _ covered
      _ ≤ amount * pool.assets := Nat.div_mul_le_self _ _
      _ = pool.assets * amount := Nat.mul_comm _ _

theorem worth_add_sharesOf_le {pool : Pool} (supplied : 0 < pool.shares)
    (amount value : Nat) :
    pool.worth (amount + pool.sharesOf value) ≤ pool.worth amount + value := by
  have bought : pool.sharesOf value * pool.assets ≤ value * pool.shares :=
    Nat.div_mul_le_self _ _
  unfold worth
  calc
    (amount + pool.sharesOf value) * pool.assets / pool.shares ≤
        (amount * pool.assets + value * pool.shares) / pool.shares := by
      apply Nat.div_le_div_right
      rw [Nat.add_mul]
      exact Nat.add_le_add_left bought _
    _ = amount * pool.assets / pool.shares + value :=
      Nat.add_mul_div_right _ _ supplied

theorem worth_le_sub_sharesOf {pool : Pool} {amount : Nat}
    (supplied : 0 < pool.shares) (owned : pool.sharesOf value ≤ amount) :
    pool.worth amount ≤ pool.worth (amount - pool.sharesOf value) + value := by
  have restored := worth_add_sharesOf_le supplied
    (amount - pool.sharesOf value) value
  rwa [Nat.sub_add_cancel owned] at restored

/-- Minting at most the value's worth of shares does not lower the rate. -/
theorem below_of_mint {pool : Pool}
    (bound : minted * pool.assets ≤ value * pool.shares) :
    Below pool ⟨pool.assets + value, pool.shares + minted⟩ := by
  unfold Below
  simp only [Nat.mul_add, Nat.add_mul]
  linarith [Nat.mul_comm pool.assets minted]

theorem Below.minted_le {pool : Pool} (positive : 0 < pool.assets)
    (below : Below pool ⟨pool.assets + value, pool.shares + minted⟩) :
    minted ≤ pool.sharesOf value := by
  unfold Below at below
  rw [sharesOf, Nat.le_div_iff_mul_le positive]
  simp only [Nat.mul_add, Nat.add_mul] at below
  linarith [Nat.mul_comm pool.assets minted]

theorem worth_sharesOf_le (pool : Pool) (value : Nat) :
    worth ⟨pool.assets + value, pool.shares + pool.sharesOf value⟩
      (pool.sharesOf value) ≤ value := by
  have bound : pool.sharesOf value * pool.assets ≤ value * pool.shares :=
    Nat.div_mul_le_self _ _
  generalize pool.sharesOf value = minted at *
  apply Nat.div_le_of_le_mul
  calc
    minted * (pool.assets + value) =
        minted * pool.assets + minted * value := Nat.mul_add _ _ _
    _ ≤ value * pool.shares + minted * value := Nat.add_le_add_right bound _
    _ = (pool.shares + minted) * value := by ring

/-- What is lost by buying shares is less than one wei and one share. -/
theorem loss_lt (pool : Pool) (value : Nat) {left : Nat}
    (positive : 0 < pool.assets) (supplied : 0 < pool.shares)
    (lost : worth ⟨pool.assets + value, pool.shares + pool.sharesOf value⟩
      (pool.sharesOf value) + 1 + left = value) :
    left * pool.shares < pool.assets := by
  have floored : value * pool.shares <
      pool.assets * (pool.sharesOf value + 1) :=
    Nat.lt_mul_div_succ _ positive
  have valued := Nat.lt_mul_div_succ
    (pool.sharesOf value * (pool.assets + value))
    (Nat.add_pos_left supplied (pool.sharesOf value))
  rw [worth] at lost
  dsimp only at lost
  generalize pool.sharesOf value * (pool.assets + value) /
    (pool.shares + pool.sharesOf value) = back at lost valued
  generalize pool.sharesOf value = minted at floored valued
  subst lost
  nlinarith [floored, valued]

/-- Paying out at most the worth of the burnt shares does not lower the
rate. -/
theorem below_of_burn {pool : Pool} (held : value ≤ pool.assets)
    (owned : minted ≤ pool.shares)
    (bound : value * pool.shares ≤ minted * pool.assets) :
    Below pool ⟨pool.assets - value, pool.shares - minted⟩ := by
  obtain ⟨rest, restEq⟩ := Nat.exists_eq_add_of_le held
  obtain ⟨kept, keptEq⟩ := Nat.exists_eq_add_of_le owned
  unfold Below
  rw [restEq, keptEq] at bound ⊢
  simp only [Nat.add_sub_cancel_left]
  nlinarith [bound]

theorem worth_bound (pool : Pool) (amount : Nat) :
    pool.worth amount * pool.shares ≤ amount * pool.assets :=
  Nat.div_mul_le_self _ _

theorem sum_worth_le {α : Type} (pool : Pool) (items : Finset α)
    (amounts : α → Nat) :
    ∑ item ∈ items, pool.worth (amounts item) ≤
      pool.worth (∑ item ∈ items, amounts item) := by
  by_cases none : pool.shares = 0
  · simp [worth, none]
  · rw [worth, Nat.le_div_iff_mul_le (Nat.pos_of_ne_zero none),
      Finset.sum_mul, Finset.sum_mul]
    exact Finset.sum_le_sum fun item _ => pool.worth_bound (amounts item)

/-- Shares bought with a value cover it only if nothing was rounded off. -/
theorem sharesOf_bound_iff (pool : Pool) (value : Nat) :
    value * pool.shares ≤ pool.sharesOf value * pool.assets ↔
      pool.assets ∣ value * pool.shares := by
  unfold sharesOf
  constructor
  · intro bound
    have whole := Nat.le_antisymm bound
      (Nat.div_mul_le_self (value * pool.shares) pool.assets)
    exact ⟨_, whole.trans (Nat.mul_comm _ _)⟩
  · intro divides
    exact Nat.le_of_eq (Nat.div_mul_cancel divides).symm

theorem worth_le_assets {pool : Pool} {amount : Nat}
    (owned : amount ≤ pool.shares) : pool.worth amount ≤ pool.assets :=
  Nat.div_le_of_le_mul (Nat.mul_le_mul_right _ owned)

theorem sharesOf_le_shares {pool : Pool} (held : value ≤ pool.assets) :
    pool.sharesOf value ≤ pool.shares :=
  Nat.div_le_of_le_mul (Nat.mul_le_mul_right _ held)

theorem sharesOf_ne_zero_iff {pool : Pool} (positive : 0 < pool.assets) :
    pool.sharesOf value ≠ 0 ↔ pool.assets ≤ value * pool.shares := by
  unfold sharesOf
  rw [Ne, Nat.div_eq_zero_iff, not_or, Nat.not_lt]
  exact and_iff_right positive.ne'

/-- Fee shares cost the other holders at most the fee: `minted` of them are
worth at most `cut / scaled` of the pool they dilute exactly when they are at
most the rounded quotient. -/
theorem le_fee_iff {cut scaled shares : Nat} (positive : cut < scaled) :
    minted ≤ cut * shares / (scaled - cut) ↔
      minted * scaled ≤ cut * (shares + minted) := by
  rw [Nat.le_div_iff_mul_le (Nat.sub_pos_of_lt positive)]
  obtain ⟨rest, rfl⟩ := Nat.exists_eq_add_of_lt positive
  have difference : cut + rest + 1 - cut = rest + 1 := by omega
  have scaling : minted * (cut + rest + 1) =
      minted * (rest + 1) + cut * minted := by ring
  rw [difference, scaling, Nat.mul_add cut, Nat.add_le_add_iff_right]

/-- Shares minted against a gain, and worth at most the gain, do not lower the
rate from before the gain. -/
theorem below_of_fee {assets gain shares grown : Nat}
    (gained : assets + gain ≤ grown)
    (bound : minted * grown ≤ gain * (shares + minted)) :
    Below ⟨assets, shares⟩ ⟨grown, shares + minted⟩ := by
  have kept := Nat.mul_le_mul_right (shares + minted) gained
  unfold Below
  dsimp only
  rw [Nat.add_mul, Nat.mul_add grown] at kept
  linarith [Nat.mul_comm grown minted]

/-- Rounding the minted shares down keeps the bound of `below_of_mint`. -/
theorem mint_bound (assets shares value : Nat) :
    value * shares / assets * assets ≤ value * shares :=
  Nat.div_mul_le_self _ _

end Pool

end Rate
