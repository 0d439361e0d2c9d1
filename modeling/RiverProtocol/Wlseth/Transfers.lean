import RiverProtocol.Lib.Paths
import RiverProtocol.River.Frames
import RiverProtocol.Wlseth

/-!
# Transfers of a value of wrapped LsETH

A transfer names a value and moves the shares that the value buys, rounded
down.  What the sender loses and the recipient gains is read back at the same
rate, rounded down as well, and an allowance is spent by the named value.
-/

namespace RiverProtocol

open Checked Outcome Balances

namespace WLSETH

variable {wlseth after : WLSETH} {river : River} {allowlist : Allowlist}
  {sender owner recipient spender : Address} {value : Nat}

/-- The wrapper after the shares of a value were moved. -/
def movedValue (wlseth : WLSETH) (river : River) (sender recipient : Address)
    (value : Nat) : WLSETH :=
  { wlseth with
    balanceOf := move wlseth.balanceOf sender recipient
      (river.pool.sharesOf value) }

theorem transferValue_ok {movedShares : Bool}
    (returned : wlseth.transferValue river allowlist sender recipient value =
      .ok (after, movedShares)) :
    river.pool.sharesOf value ≤ wlseth.balanceOf sender ∧
      after = wlseth.movedValue river sender recipient value ∧
      movedShares = decide (0 < river.pool.sharesOf value) := by
  simp only [transferValue, bind_eq_ok] at returned
  obtain ⟨-, -, shares, bought, returned⟩ := returned
  obtain ⟨rfl, -⟩ := River.sharesFromBalance_ok bought
  split at returned
  · rename_i some
    simp only [bind_eq_ok, usub_eq_ok, uadd_eq_ok, pure_eq_ok,
      Prod.mk.injEq] at returned
    obtain ⟨debited, ⟨enough, rfl⟩, credited, ⟨-, rfl⟩, rfl, rfl⟩ := returned
    exact ⟨enough, rfl, (decide_eq_true some).symm⟩
  · rename_i none
    have zero : river.pool.sharesOf value = 0 := Nat.eq_zero_of_not_pos none
    simp only [pure_eq_ok, Prod.mk.injEq] at returned
    obtain ⟨rfl, rfl⟩ := returned
    refine ⟨by rw [zero]; exact Nat.zero_le _, ?_,
      (decide_eq_false none).symm⟩
    rw [movedValue, zero, move_zero]

/-- What the guards of both transfers ensure. -/
structure Funded (wlseth : WLSETH) (river : River) (owner : Address)
    (value : Nat) : Prop where
  positive : value ≠ 0
  valued : wlseth.underlyingBalanceOf river owner =
    .ok (river.pool.worth (wlseth.balanceOf owner))
  covered : value ≤ river.pool.worth (wlseth.balanceOf owner)

theorem Funded.of_guards {funds : Nat}
    (positive : require (value ≠ 0) Error.nullTransfer = .ok ())
    (valued : wlseth.underlyingBalanceOf river owner = .ok funds)
    (covered : require (value ≤ funds) Error.balanceTooLow = .ok ()) :
    wlseth.Funded river owner value := by
  have funds_eq := (River.balanceFromShares_ok valued).1
  subst funds_eq
  exact ⟨require_eq_ok.mp positive, valued, require_eq_ok.mp covered⟩

theorem Funded.supplied (funded : wlseth.Funded river owner value) :
    0 < river.pool.shares := by
  apply Nat.pos_of_ne_zero
  intro none
  have covered := funded.covered
  rw [Rate.Pool.worth, none, Nat.div_zero] at covered
  exact funded.positive (Nat.eq_zero_of_le_zero covered)

theorem Funded.owned (funded : wlseth.Funded river owner value) :
    river.pool.sharesOf value ≤ wlseth.balanceOf owner :=
  Rate.Pool.sharesOf_le funded.covered

theorem transfer_ok
    (returned : wlseth.transfer river allowlist sender recipient value =
      .ok after) :
    wlseth.Funded river sender value ∧
      after = wlseth.movedValue river sender recipient value := by
  simp only [transfer, bind_eq_ok, pure_eq_ok, Prod.exists] at returned
  obtain ⟨_, positive, funds, valued, _, covered, -, -, moved, shares, moving,
    rfl⟩ := returned
  exact ⟨.of_guards positive valued covered, (transferValue_ok moving).2.1⟩

/-- The allowance after a transfer of `value` by its spender. -/
def spentAllowance (river : River) (value allowance : Nat) : Nat :=
  if 0 < river.pool.sharesOf value ∧ allowance ≠ maxUint256 then
    allowance - value
  else allowance

/-- The wrapper after a transfer by a spender. -/
def movedFrom (wlseth : WLSETH) (river : River)
    (spender owner recipient : Address) (value : Nat) : WLSETH :=
  { wlseth.movedValue river owner recipient value with
    approvals := Function.update wlseth.approvals owner
      (Function.update (wlseth.approvals owner) spender
        (spentAllowance river value (wlseth.approvals owner spender))) }

theorem transferFrom_ok
    (returned : wlseth.transferFrom river allowlist spender owner recipient
      value = .ok after) :
    wlseth.Funded river owner value ∧
      value ≤ wlseth.approvals owner spender ∧
      after = wlseth.movedFrom river spender owner recipient value := by
  simp only [transferFrom, bind_eq_ok, Prod.exists] at returned
  obtain ⟨_, positive, funds, valued, _, covered, -, -, _, allowed, moved,
    movedShares, moving, returned⟩ := returned
  obtain ⟨-, rfl, rfl⟩ := transferValue_ok moving
  refine ⟨.of_guards positive valued covered, require_eq_ok.mp allowed, ?_⟩
  rw [movedFrom, spentAllowance]
  split at returned
  · rename_i some
    rw [decide_eq_true_iff] at some
    unfold spendAllowance at returned
    split at returned
    · rename_i finite
      simp only [bind_eq_ok, usub_eq_ok] at returned
      obtain ⟨remaining, ⟨-, rfl⟩, approving⟩ := returned
      simp only [approveFor, bind_eq_ok, pure_eq_ok] at approving
      obtain ⟨-, -, -, -, rfl⟩ := approving
      rw [if_pos ⟨some, finite⟩]
      rfl
    · rename_i infinite
      rw [pure_eq_ok] at returned
      rw [← returned, if_neg fun both => infinite both.2]
      simp [movedValue]
  · rename_i none
    rw [decide_eq_true_iff] at none
    rw [pure_eq_ok] at returned
    rw [← returned, if_neg fun both => none both.1]
    simp [movedValue]

/-- What a transfer of a value does to the balances. -/
structure Rounded (river : River) (before after : WLSETH)
    (sender recipient : Address) (value : Nat) : Prop where
  falls : ∃ funds left, before.underlyingBalanceOf river sender = .ok funds ∧
    after.underlyingBalanceOf river sender = .ok left ∧ funds ≤ left + value
  rises : ∀ funds more, before.underlyingBalanceOf river recipient =
    .ok funds → after.underlyingBalanceOf river recipient = .ok more →
      more ≤ funds + value
  others : ∀ account, account ≠ sender → account ≠ recipient →
    after.balanceOf account = before.balanceOf account
  shares : total after.balanceOf = total before.balanceOf
  oneself : sender = recipient → after.balanceOf = before.balanceOf
  dust : river.sharesFromBalance value = .ok 0 → after = before

namespace Funded

variable {before : WLSETH}

theorem worth_le (funded : before.Funded river sender value) :
    river.pool.worth (before.balanceOf sender) ≤
      river.pool.worth (move before.balanceOf sender recipient
        (river.pool.sharesOf value) sender) + value := by
  by_cases same : sender = recipient
  · rw [← same, move_self funded.owned]
    exact Nat.le_add_right _ _
  · rw [move_sender same]
    exact Rate.Pool.worth_le_sub_sharesOf funded.supplied funded.owned

theorem le_worth (funded : before.Funded river sender value) :
    river.pool.worth (move before.balanceOf sender recipient
        (river.pool.sharesOf value) recipient) ≤
      river.pool.worth (before.balanceOf recipient) + value := by
  by_cases same : recipient = sender
  · rw [same, move_self funded.owned]
    exact Nat.le_add_right _ _
  · rw [move_recipient same]
    exact Rate.Pool.worth_add_sharesOf_le funded.supplied _ _

theorem rounded (funded : before.Funded river sender value)
    (balances : after.balanceOf = move before.balanceOf sender recipient
      (river.pool.sharesOf value))
    (kept : river.pool.sharesOf value = 0 → after = before) :
    Rounded river before after sender recipient value where
  falls := by
    have fewer : after.balanceOf sender ≤ before.balanceOf sender := by
      rw [balances]
      by_cases same : sender = recipient
      · rw [← same, move_self funded.owned]
      · rw [move_sender same]
        exact Nat.sub_le _ _
    refine ⟨_, _, funded.valued,
      River.balanceFromShares_of_le fewer funded.valued, ?_⟩
    rw [balances]
    exact funded.worth_le
  rises funds more valued grown := by
    rw [(River.balanceFromShares_ok valued).1,
      (River.balanceFromShares_ok grown).1, balances]
    exact funded.le_worth
  others account notSender notRecipient := by
    rw [balances, move_other notSender notRecipient]
  shares := by
    rw [balances, total_move funded.owned]
  oneself same := by
    rw [balances, ← same, move_self funded.owned]
  dust none := kept (River.sharesFromBalance_ok none).1.symm

end Funded

theorem movedValue_dust (none : river.pool.sharesOf value = 0) :
    wlseth.movedValue river sender recipient value = wlseth := by
  rw [movedValue, none, move_zero]

theorem movedFrom_dust (none : river.pool.sharesOf value = 0) :
    wlseth.movedFrom river spender owner recipient value = wlseth := by
  rw [movedFrom, movedValue_dust none, spentAllowance, none,
    if_neg fun both => Nat.lt_irrefl 0 both.1, Function.update_eq_self,
    Function.update_eq_self]

theorem ends_transferValue (funded : wlseth.Funded river sender value) :
    Ends (fun failure => failure ≠ .panic .underflow) (fun _ => True)
      (wlseth.transferValue river allowlist sender recipient value) := by
  have overflow : Error.panic .overflow ≠ .panic .underflow := nofun
  refine .bind_returned (.bind_returned (.check nofun) fun _ _ =>
    .check nofun) fun _ _ => ?_
  refine .bind_returned (River.completes_sharesFromBalance.allow
    fun failure failed => failed ▸ overflow) fun shares bought => ?_
  obtain ⟨rfl, -⟩ := River.sharesFromBalance_ok bought
  split
  · refine .bind_returned (ends_usub funded.owned trivial) fun _ _ => ?_
    exact .bind_returned (ends_uadd (fun _ => overflow) fun _ => trivial)
      fun _ _ => .pure trivial
  · exact .pure trivial

theorem completes_underlyingBalanceOf :
    Completes (wlseth.underlyingBalanceOf river owner) :=
  River.completes_balanceFromShares

theorem ends_transfer :
    Ends (fun failure => failure ≠ .panic .underflow) (fun _ => True)
      (wlseth.transfer river allowlist sender recipient value) := by
  have overflow : Error.panic .overflow ≠ .panic .underflow := nofun
  refine .bind_returned (.check nofun) fun _ positive => ?_
  refine .bind_returned (completes_underlyingBalanceOf.allow
    fun failure failed => failed ▸ overflow) fun funds valued => ?_
  refine .bind_returned (.check nofun) fun _ covered => ?_
  refine .bind_returned (.check nofun) fun _ _ => ?_
  exact .bind_returned
    (ends_transferValue (.of_guards positive valued covered))
    fun _ _ => .pure trivial

theorem ends_spendAllowance {allowance : Nat} (allowed : value ≤ allowance) :
    Ends (fun failure => failure ≠ .panic .underflow) (fun _ => True)
      (wlseth.spendAllowance spender owner value allowance) := by
  unfold spendAllowance
  split
  · refine .bind_returned (ends_usub allowed trivial) fun _ _ => ?_
    refine .bind_returned (.check nofun) fun _ _ => ?_
    exact .bind_returned (.check nofun) fun _ _ => .pure trivial
  · exact .pure trivial

theorem ends_transferFrom :
    Ends (fun failure => failure ≠ .panic .underflow) (fun _ => True)
      (wlseth.transferFrom river allowlist spender owner recipient
        value) := by
  have overflow : Error.panic .overflow ≠ .panic .underflow := nofun
  refine .bind_returned (.check nofun) fun _ positive => ?_
  refine .bind_returned (completes_underlyingBalanceOf.allow
    fun failure failed => failed ▸ overflow) fun funds valued => ?_
  refine .bind_returned (.check nofun) fun _ covered => ?_
  refine .bind_returned (.check nofun) fun _ _ => ?_
  refine .bind_returned (.check nofun) fun _ allowed => ?_
  refine .bind_returned
    (ends_transferValue (.of_guards positive valued covered))
    fun (moved, movedShares) _ => ?_
  cases movedShares with
  | true => exact ends_spendAllowance (require_eq_ok.mp allowed)
  | false => exact .pure trivial

/-- A transfer by a spender, weighted with what it takes from one owner: the
fall of the owner's value and the shares that leave. -/
def Spend (river : River) (spender owner : Address) (before : WLSETH)
    (taken : Nat × Nat) (after : WLSETH) : Prop :=
  ∃ allowlist source recipient value,
    before.transferFrom river allowlist spender source recipient value =
      .ok after ∧
    taken = if source = owner then
      (river.pool.worth (before.balanceOf owner) -
          river.pool.worth (after.balanceOf owner),
        river.pool.sharesOf value)
    else 0

/-- A finite allowance pays for what was taken, by value and by shares. -/
def Paid (river : River) (taken : Nat × Nat) (allowance left : Nat) : Prop :=
  taken.1 + left ≤ allowance ∧
    taken.2 * river.pool.assets + left * river.pool.shares ≤
      allowance * river.pool.shares

theorem Paid.nothing (allowance : Nat) : Paid river 0 allowance allowance :=
  ⟨(Nat.zero_add _).le, by rw [Prod.snd_zero, Nat.zero_mul, Nat.zero_add]⟩

theorem Paid.add {first second : Nat × Nat} {allowance middle left : Nat}
    (paid : Paid river first allowance middle)
    (further : Paid river second middle left) :
    Paid river (first + second) allowance left := by
  obtain ⟨value, shares⟩ := paid
  obtain ⟨moreValue, moreShares⟩ := further
  unfold Paid
  rw [Prod.fst_add, Prod.snd_add, Nat.add_mul]
  omega

theorem paid_value {allowance lost : Nat} (allowed : value ≤ allowance)
    (bound : lost ≤ value) :
    Paid river (lost, river.pool.sharesOf value) allowance
      (allowance - value) := by
  have bought : river.pool.sharesOf value * river.pool.assets ≤
      value * river.pool.shares := Nat.div_mul_le_self _ _
  have whole : value * river.pool.shares +
      (allowance - value) * river.pool.shares =
        allowance * river.pool.shares := by
    rw [← Nat.add_mul, Nat.add_sub_cancel' allowed]
  unfold Paid
  dsimp only
  omega

theorem Spend.paid {before : WLSETH} {taken : Nat × Nat}
    (spend : Spend river spender owner before taken after)
    (finite : before.approvals owner spender < maxUint256) :
    Paid river taken (before.approvals owner spender)
      (after.approvals owner spender) := by
  obtain ⟨allowlist, source, recipient, value, returned, rfl⟩ := spend
  obtain ⟨funded, allowed, rfl⟩ := transferFrom_ok returned
  by_cases same : source = owner
  · subst same
    rw [if_pos rfl]
    by_cases some : 0 < river.pool.sharesOf value
    · have left : (before.movedFrom river spender source recipient
          value).approvals source spender =
            before.approvals source spender - value := by
        simp [movedFrom, spentAllowance, some, finite.ne]
      rw [left]
      exact paid_value allowed (Nat.sub_le_iff_le_add'.mpr funded.worth_le)
    · -- below one share nothing moves and the allowance is kept
      have none := Nat.eq_zero_of_not_pos some
      rw [movedFrom_dust none, Nat.sub_self, none]
      exact Paid.nothing _
  · rw [if_neg same]
    have kept : (before.movedFrom river spender source recipient
        value).approvals owner = before.approvals owner :=
      Function.update_of_ne (Ne.symm same) _ _
    rw [kept]
    exact Paid.nothing _

theorem paid_of_spends {start : WLSETH} {taken : Nat × Nat}
    (spends : Paths.Path (Spend river spender owner) start taken after)
    (finite : start.approvals owner spender < maxUint256) :
    Paid river taken (start.approvals owner spender)
      (after.approvals owner spender) := by
  induction spends with
  | refl start => exact Paid.nothing _
  | head spend _ induction =>
      have paid := spend.paid finite
      have decreased := (Nat.le_add_left _ _).trans paid.1
      exact paid.add (induction (decreased.trans_lt finite))

theorem Paid.worth_le {taken : Nat × Nat} {allowance left : Nat}
    (paid : Paid river taken allowance left) :
    river.pool.worth taken.2 ≤ allowance - left := by
  apply Nat.div_le_of_le_mul
  rw [Nat.mul_sub, Nat.mul_comm _ allowance, Nat.mul_comm _ left]
  exact Nat.le_sub_of_add_le paid.2

/-- A transfer of a value never underflows and changes the balances of its
parties by at most the value.  A finite allowance pays for the value and for
the worth of the shares that its spender takes from an owner. -/
theorem value_transfers_round_safely (river : River) :
    (∀ (before : WLSETH) allowlist sender recipient value,
      before.transfer river allowlist sender recipient value ≠
        .error (.panic .underflow) ∧
      ∀ after, before.transfer river allowlist sender recipient value =
          .ok after →
        Rounded river before after sender recipient value ∧
          (sender = recipient → after = before)) ∧
    (∀ (before : WLSETH) allowlist spender owner recipient value,
      before.transferFrom river allowlist spender owner recipient value ≠
        .error (.panic .underflow) ∧
      ∀ after, before.transferFrom river allowlist spender owner recipient
          value = .ok after →
        Rounded river before after owner recipient value) ∧
    ∀ (start after : WLSETH) spender owner lost moved,
      Paths.Path (Spend river spender owner) start (lost, moved) after →
      start.approvals owner spender < maxUint256 →
      lost + after.approvals owner spender ≤ start.approvals owner spender ∧
        river.pool.worth moved ≤
          start.approvals owner spender - after.approvals owner spender := by
  refine ⟨?_, ?_, ?_⟩
  · intro before allowlist sender recipient value
    refine ⟨fun failed => ends_transfer.of_error failed rfl, ?_⟩
    intro after returned
    obtain ⟨funded, rfl⟩ := transfer_ok returned
    refine ⟨funded.rounded rfl movedValue_dust, ?_⟩
    rintro rfl
    rw [movedValue, move_self funded.owned]
  · intro before allowlist spender owner recipient value
    refine ⟨fun failed => ends_transferFrom.of_error failed rfl, ?_⟩
    intro after returned
    obtain ⟨funded, -, rfl⟩ := transferFrom_ok returned
    exact funded.rounded rfl movedFrom_dust
  · intro start after spender owner lost moved spends finite
    have paid := paid_of_spends spends finite
    exact ⟨paid.1, paid.worth_le⟩

section Sample

/-- Three wei against two shares. -/
def sampleRate : River :=
  { River.specified River.mainnetSpec with
    balanceToDeposit := 3, shares := 2 }

def sampleHolder : WLSETH :=
  { fresh with
    balanceOf := Function.update (fun _ => 0) (.ofNat 1) 2
    approvals := fun _ _ => 5 }

def openAllowlist : Allowlist :=
  { administrable := { admin := .ofNat 10, pendingAdmin := .zero }
    allower := .ofNat 10
    denier := .ofNat 10
    permissions := fun _ => 0 }

/-- Two wei buy one share, and the allowance falls from five to three. -/
theorem value_transfers_round_safely_sample :
    ∃ after, sampleHolder.transferFrom sampleRate openAllowlist (.ofNat 9)
        (.ofNat 1) (.ofNat 2) 2 = .ok after ∧
      after.approvals (.ofNat 1) (.ofNat 9) = 3 ∧
      Rounded sampleRate sampleHolder after (.ofNat 1) (.ofNat 2) 2 ∧
      2 + after.approvals (.ofNat 1) (.ofNat 9) ≤ 5 := by
  have checked : returns (sampleHolder.transferFrom sampleRate openAllowlist
      (.ofNat 9) (.ofNat 1) (.ofNat 2) 2) (fun after =>
        decide (after.approvals (.ofNat 1) (.ofNat 9) = 3 ∧
          sampleRate.pool.worth (sampleHolder.balanceOf (.ofNat 1)) -
            sampleRate.pool.worth (after.balanceOf (.ofNat 1)) = 2)) =
      true := by
    decide +kernel
  obtain ⟨after, returned, facts⟩ := returns_iff.mp checked
  obtain ⟨left, fell⟩ := of_decide_eq_true facts
  have safely := value_transfers_round_safely sampleRate
  have spends : Paths.Path (Spend sampleRate (.ofNat 9) (.ofNat 1))
      sampleHolder (2, 1) after := by
    apply Paths.Path.single
    refine ⟨openAllowlist, .ofNat 1, .ofNat 2, 2, returned, ?_⟩
    rw [if_pos rfl, fell]
    rfl
  refine ⟨after, returned, left,
    (safely.2.1 sampleHolder openAllowlist _ _ _ _).2 after returned, ?_⟩
  exact (safely.2.2 sampleHolder after _ _ 2 1 spends (by decide)).1

end Sample

end WLSETH

end RiverProtocol
