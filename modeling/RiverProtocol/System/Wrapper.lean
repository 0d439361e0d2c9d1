import RiverProtocol.System.Books
import RiverProtocol.System.Standing

/-!
# The wrapper is fully backed

The wrapper counts the shares of its owners and owns at least as many on
River.  A whole balance can be burnt whenever its underlying value, which a
burn computes for its event, fits the arithmetic.
-/

namespace RiverProtocol

open Checked Outcome Balances

open RedeemManager (alice)

namespace River

variable {river : River} {allowlist : Allowlist} {sender recipient : Address}
  {value : Nat}

theorem transfer_of_le
    (senderAllowed : allowlist.isDenied sender = false)
    (recipientAllowed : allowlist.isDenied recipient = false)
    (positive : value ≠ 0) (funds : value ≤ river.sharesPerOwner sender)
    (named : recipient ≠ .zero) (fits : river.totalShares < wordLimit) :
    river.transfer allowlist sender recipient value =
      .ok (river.moved sender recipient value) := by
  rw [transfer, onTransfer, require_of senderAllowed, ok_bind,
    require_of recipientAllowed, ok_bind, require_of positive, ok_bind,
    require_of funds, ok_bind, require_of named, ok_bind]
  exact transferShares_of_le funds fits

end River

namespace WLSETH

variable {wlseth : WLSETH} {river : River} {allowlist : Allowlist}
  {self holder recipient : Address}

/-- A whole balance is burnt exactly where its value is a word. -/
theorem burn_whole_iff (holderAllowed : allowlist.isDenied holder = false)
    (selfAllowed : allowlist.isDenied self = false)
    (recipientAllowed : allowlist.isDenied recipient = false)
    (named : recipient ≠ .zero) (positive : 0 < wlseth.balanceOf holder)
    (counted : wlseth.Counted)
    (backed : wlseth.balanceOfLsETH ≤ river.sharesPerOwner self)
    (fits : river.totalShares < wordLimit) :
    (∃ result, wlseth.burn self river allowlist holder recipient
        (wlseth.balanceOf holder) = .ok result) ↔
      ∃ value, wlseth.underlyingBalanceOf river holder = .ok value := by
  have held : wlseth.balanceOf holder ≤ wlseth.balanceOfLsETH :=
    (le_total _ holder).trans_eq counted
  rw [burn, River.onTransfer, require_of holderAllowed, ok_bind,
    require_of recipientAllowed, ok_bind, require_of (Nat.le_refl _), ok_bind,
    usub_of_le (Nat.le_refl _), ok_bind,
    River.transfer_of_le selfAllowed recipientAllowed (Nat.ne_of_gt positive)
      (held.trans backed) named fits, ok_bind, usub_of_le held, ok_bind]
  simp only [bind_eq_ok, pure_eq_ok]
  constructor
  · rintro ⟨result, value, valued, -⟩
    exact ⟨value, valued⟩
  · rintro ⟨value, valued⟩
    exact ⟨_, value, valued, rfl⟩

end WLSETH

namespace System

variable {deployment : Deployment} {system : System}

/-- The shares of the owners add up to the count, which the wrapper owns on
River; their values add up to at most the total supply; and an account burns
its whole balance exactly where the value of that balance is a word. -/
theorem wrapper_backed (reachable : Reachable deployment system) :
    total system.wlseth.balanceOf = system.wlseth.balanceOfLsETH ∧
    system.wlseth.balanceOfLsETH ≤
      system.river.sharesPerOwner deployment.wlseth ∧
    (∀ supply, system.wlseth.totalSupply system.river = .ok supply →
      ∃ balances : Address → Nat,
        (∀ holder, system.wlseth.underlyingBalanceOf system.river holder =
          .ok (balances holder)) ∧ total balances ≤ supply) ∧
    ∀ holder recipient, system.allowlist.isDenied holder = false →
      system.allowlist.isDenied deployment.wlseth = false →
      system.allowlist.isDenied recipient = false → recipient ≠ .zero →
      0 < system.wlseth.balanceOf holder →
      ((∃ after, system.unwrap deployment holder recipient
          (system.wlseth.balanceOf holder) = .ok after) ↔
        ∃ value, system.wlseth.underlyingBalanceOf system.river holder =
          .ok value) := by
  have sound := Sound.of_reachable reachable
  obtain ⟨standing, counted⟩ := Standing.of_reachable reachable
  refine ⟨counted, standing.wrapped, ?_, ?_⟩
  · intro supply supplied
    refine ⟨fun holder =>
      system.river.pool.worth (system.wlseth.balanceOf holder), ?_, ?_⟩
    · intro holder
      exact River.balanceFromShares_of_le
        ((le_total _ holder).trans_eq counted) supplied
    · rw [(River.balanceFromShares_ok supplied).1, ← counted]
      exact Rate.Pool.sum_worth_le _ _ _
  · intro holder recipient holderAllowed selfAllowed recipientAllowed named
      positive
    have fits : system.river.totalShares < wordLimit :=
      sound.river.shares_total ▸ standing.supply
    rw [← WLSETH.burn_whole_iff holderAllowed selfAllowed recipientAllowed
      named positive counted standing.wrapped fits]
    simp only [unwrap, bind_eq_ok, pure_eq_ok, Prod.exists]
    constructor
    · rintro ⟨after, wlseth, river, burning, -⟩
      exact ⟨wlseth, river, burning⟩
    · rintro ⟨wlseth, river, burning⟩
      exact ⟨_, wlseth, river, burning, rfl⟩

/-- A deposit of 2^200 wei, of which 2^55 shares are wrapped. -/
def sampleWrapped : Except Error System := do
  let start := fresh sample
  let river ← (River.Call.deposit (2 ^ 200)).apply start.river
    start.allowlist alice
  let river ← (River.Call.approve sample.wlseth (2 ^ 56)).apply river
    start.allowlist alice
  let deposited : System := { start with river := river }
  deposited.wrap sample alice alice (2 ^ 55)

/-- As many shares again. -/
def sampleRewrapped : Except Error System := do
  let wrapped ← sampleWrapped
  wrapped.wrap sample alice alice (2 ^ 55)

theorem sampleWrapped_reachable
    (returned : sampleWrapped = .ok system) : Reachable sample system := by
  simp only [sampleWrapped, bind_eq_ok] at returned
  obtain ⟨deposited, depositing, approved, approving, wrapping⟩ := returned
  have external : sample.External alice := by decide
  have start : Reachable sample (fresh sample) := .refl
  exact ((start.tail (.operation (.river external depositing))).tail
    (.operation (.river external approving))).tail
    (.operation (.wrap external wrapping))

theorem wrapper_backed_sample : ∃ system, sampleWrapped = .ok system ∧
    total system.wlseth.balanceOf = 2 ^ 55 ∧
    ∃ after, system.unwrap sample alice (.ofNat 2) (2 ^ 55) = .ok after := by
  have checked : returns sampleWrapped (fun system =>
      decide (system.allowlist.isDenied alice = false ∧
        system.allowlist.isDenied sample.wlseth = false ∧
        system.allowlist.isDenied (.ofNat 2) = false ∧
        system.wlseth.balanceOf alice = 2 ^ 55 ∧
        system.wlseth.balanceOfLsETH = 2 ^ 55) &&
      returns (system.wlseth.underlyingBalanceOf system.river alice)
        fun _ => true) = true := by
    decide +kernel
  obtain ⟨system, returned, facts⟩ := returns_iff.mp checked
  obtain ⟨allowed, valuing⟩ := Bool.and_eq_true_iff.mp facts
  obtain ⟨holderAllowed, selfAllowed, recipientAllowed, balance, wrapped⟩ :=
    of_decide_eq_true allowed
  obtain ⟨value, valued, -⟩ := returns_iff.mp valuing
  obtain ⟨counted, -, -, burns⟩ :=
    wrapper_backed (sampleWrapped_reachable returned)
  have burnt := (burns alice (.ofNat 2) holderAllowed selfAllowed
    recipientAllowed (by decide) (balance ▸ Nat.two_pow_pos 55)).mpr
      ⟨value, valued⟩
  rw [balance] at burnt
  exact ⟨system, returned, counted.trans wrapped, burnt⟩

/-- The value of 2^56 shares overflows, so they cannot be burnt at once. -/
theorem whole_balance_overflows :
    ∃ system, Reachable sample system ∧
      system.allowlist.isDenied alice = false ∧
      system.allowlist.isDenied sample.wlseth = false ∧ alice ≠ .zero ∧
      system.wlseth.balanceOf alice = 2 ^ 56 ∧
      ¬ ∃ after, system.unwrap sample alice alice
        (system.wlseth.balanceOf alice) = .ok after := by
  have checked : returns sampleRewrapped (fun system =>
      decide (system.allowlist.isDenied alice = false ∧
        system.allowlist.isDenied sample.wlseth = false ∧ alice ≠ .zero ∧
        system.wlseth.balanceOf alice = 2 ^ 56) &&
      fails (system.unwrap sample alice alice
        (system.wlseth.balanceOf alice)) (.panic .overflow)) = true := by
    decide +kernel
  obtain ⟨system, returned, facts⟩ := returns_iff.mp checked
  obtain ⟨allowed, failing⟩ := Bool.and_eq_true_iff.mp facts
  obtain ⟨holderAllowed, selfAllowed, named, balance⟩ :=
    of_decide_eq_true allowed
  have reachable : Reachable sample system := by
    simp only [sampleRewrapped, bind_eq_ok] at returned
    obtain ⟨wrapped, wrapping, rewrapping⟩ := returned
    exact (sampleWrapped_reachable wrapping).tail
      (.operation (.wrap (by decide) rewrapping))
  refine ⟨system, reachable, holderAllowed, selfAllowed, named, balance, ?_⟩
  rintro ⟨after, burning⟩
  rw [fails_iff.mp failing] at burning
  cases burning

end System

end RiverProtocol
