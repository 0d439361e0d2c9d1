import Mathlib.Data.List.GetD
import Mathlib.Data.List.Induction
import Mathlib.Data.List.Pairwise
import Mathlib.Logic.Function.Iterate
import Mathlib.Tactic.Ring

/-!
# A value and its past

A history is a list of checkpoints, each the block of a write and the value
written.  The last write of a block replaces the earlier ones, so the blocks
increase.  The value at the end of a past block is found by bisection, after
a first guess near the end of the history.
-/

namespace Checkpoints

structure Checkpoint (α : Type) where
  fromBlock : Nat
  votes : α
  deriving DecidableEq, Repr

section

variable {α : Type}

/-- A write of the present block replaces what that block wrote before. -/
def write (history : List (Checkpoint α)) (block : Nat) (value : α) :
    List (Checkpoint α) :=
  match history.getLast? with
  | some last =>
    if last.fromBlock = block then history.dropLast ++ [⟨block, value⟩]
    else history ++ [⟨block, value⟩]
  | none => history ++ [⟨block, value⟩]

variable [Zero α]

/-- The value of the last write, zero before the first one. -/
def latest (history : List (Checkpoint α)) : α :=
  match history.getLast? with
  | some last => last.votes
  | none => 0

/-- The value at the end of a block. -/
def valueAt (history : List (Checkpoint α)) (block : Nat) : α :=
  history.foldl
    (fun value checkpoint =>
      if checkpoint.fromBlock ≤ block then checkpoint.votes else value) 0

/-- Reading storage by position, without a bounds check. -/
def unsafeAccess (history : List (Checkpoint α)) (pos : Nat) : Checkpoint α :=
  history.getD pos ⟨0, 0⟩

end

/-- The average, rounded down, computed without the sum. -/
def average (a b : Nat) : Nat := (a &&& b) + (a ^^^ b) / 2

theorem and_add_xor (a b : Nat) : 2 * (a &&& b) + (a ^^^ b) = a + b := by
  induction a using Nat.strongRecOn generalizing b with
  | ind a smaller =>
      by_cases zero : a = 0
      · subst zero
        simp
      · have halves := smaller (a / 2) (by omega) (b / 2)
        rw [← Nat.and_div_two, ← Nat.xor_div_two] at halves
        have carried := @Nat.and_mod_two_eq_one a b
        have kept := @Nat.xor_mod_two_eq_one a b
        omega

theorem average_eq (a b : Nat) : average a b = (a + b) / 2 := by
  have sum := and_add_xor a b
  unfold average
  omega

/-- One bit of the logarithm for each power of two. -/
def log2Step (progress : Nat × Nat) (shift : Nat) : Nat × Nat :=
  if progress.1 >>> shift > 0 then
    (progress.1 >>> shift, progress.2 + shift)
  else progress

/-- The logarithm in base two, rounded down. -/
def log2 (value : Nat) : Nat :=
  ([128, 64, 32, 16, 8, 4, 2, 1].foldl log2Step (value, 0)).2

/-- One step of Newton's method towards the square root of `a`. -/
def newton (a result : Nat) : Nat := (result + a / result) >>> 1

/-- The square root, from a power of two below it by Newton's method. -/
def sqrt (a : Nat) : Nat :=
  if a = 0 then 0
  else
    let result := (newton a)^[7] (1 <<< (log2 a >>> 1))
    min result (a / result)

/-- What was shifted out of the value is in the result. -/
theorem foldl_log2Step (shifts : List Nat) (progress : Nat × Nat) :
    (shifts.foldl log2Step progress).1 *
        2 ^ (shifts.foldl log2Step progress).2 ≤
      progress.1 * 2 ^ progress.2 ∧
      (0 < progress.1 → 0 < (shifts.foldl log2Step progress).1) := by
  induction shifts generalizing progress with
  | nil => exact ⟨le_rfl, id⟩
  | cons shift rest ih =>
      obtain ⟨below, positive⟩ := ih (log2Step progress shift)
      rw [List.foldl_cons]
      have step : (log2Step progress shift).1 *
          2 ^ (log2Step progress shift).2 ≤ progress.1 * 2 ^ progress.2 ∧
          (0 < progress.1 → 0 < (log2Step progress shift).1) := by
        unfold log2Step
        split
        · refine ⟨?_, fun _ => by assumption⟩
          calc
            progress.1 >>> shift * 2 ^ (progress.2 + shift) =
                progress.1 / 2 ^ shift * 2 ^ shift * 2 ^ progress.2 := by
              rw [Nat.shiftRight_eq_div_pow, pow_add]
              ac_rfl
            _ ≤ _ := Nat.mul_le_mul_right _ (Nat.div_mul_le_self _ _)
        · exact ⟨le_rfl, id⟩
      exact ⟨below.trans step.1, fun some => positive (step.2 some)⟩

theorem pow_log2_le {value : Nat} (positive : 0 < value) :
    2 ^ log2 value ≤ value := by
  obtain ⟨below, left⟩ :=
    foldl_log2Step [128, 64, 32, 16, 8, 4, 2, 1] (value, 0)
  calc
    2 ^ log2 value ≤ _ := Nat.le_mul_of_pos_left _ (left positive)
    _ ≤ value * 2 ^ 0 := below
    _ = value := by rw [pow_zero, Nat.mul_one]

theorem newton_bounds {a result : Nat} (least : 1 ≤ result)
    (most : result ≤ a) : 1 ≤ newton a result ∧ newton a result ≤ a := by
  have quotient : 1 ≤ a / result := Nat.div_pos most least
  have product : result * (a / result) ≤ a := Nat.mul_div_le a result
  have sum : result + a / result ≤ a + 1 := by
    obtain ⟨r, rfl⟩ := Nat.exists_eq_add_of_le least
    obtain ⟨q, quotient_eq⟩ := Nat.exists_eq_add_of_le quotient
    rw [quotient_eq] at product ⊢
    have expanded : (1 + r) * (1 + q) = 1 + r + q + r * q := by ring
    omega
  rw [newton, Nat.shiftRight_eq_div_pow, pow_one]
  omega

theorem iterate_newton_bounds {a : Nat} (steps : Nat) {result : Nat}
    (least : 1 ≤ result) (most : result ≤ a) :
    1 ≤ (newton a)^[steps] result ∧ (newton a)^[steps] result ≤ a := by
  induction steps generalizing result with
  | zero => exact ⟨least, most⟩
  | succ steps ih =>
      obtain ⟨above, below⟩ := newton_bounds least most
      exact ih above below

/-- All the search needs of the root: it lies inside the history. -/
theorem sqrt_bounds {a : Nat} (positive : 0 < a) :
    1 ≤ sqrt a ∧ sqrt a ≤ a := by
  have guess : 1 <<< (log2 a >>> 1) = 2 ^ (log2 a / 2) := by
    rw [Nat.shiftLeft_eq, Nat.one_mul, Nat.shiftRight_eq_div_pow, pow_one]
  have below : 2 ^ (log2 a / 2) ≤ a :=
    (Nat.pow_le_pow_right Nat.two_pos (Nat.div_le_self _ _)).trans
      (pow_log2_le positive)
  obtain ⟨least, most⟩ := iterate_newton_bounds 7 Nat.one_le_two_pow below
  have quotient : 1 ≤ a / (newton a)^[7] (2 ^ (log2 a / 2)) :=
    Nat.div_pos most least
  rw [sqrt, if_neg (Nat.ne_of_gt positive), guess]
  dsimp only
  omega

section

variable {α : Type} {history later : List (Checkpoint α)}
  {checkpoint : Checkpoint α} {block timepoint now : Nat} {value : α}

/-- A history whose blocks increase, none of them in the future. -/
structure Ordered (history : List (Checkpoint α)) (now : Nat) : Prop where
  increasing : history.Pairwise fun earlier later =>
    earlier.fromBlock < later.fromBlock
  past : ∀ checkpoint ∈ history, checkpoint.fromBlock ≤ now

theorem Ordered.nil : Ordered ([] : List (Checkpoint α)) now :=
  ⟨.nil, fun _ member => absurd member List.not_mem_nil⟩

theorem Ordered.mono (ordered : Ordered history now) (passed : now ≤ block) :
    Ordered history block :=
  ⟨ordered.increasing, fun checkpoint member =>
    (ordered.past checkpoint member).trans passed⟩

section

variable [Zero α]

@[simp] theorem valueAt_nil :
    valueAt ([] : List (Checkpoint α)) timepoint = 0 := rfl

@[simp] theorem valueAt_concat :
    valueAt (history ++ [checkpoint]) timepoint =
      if checkpoint.fromBlock ≤ timepoint then checkpoint.votes
      else valueAt history timepoint := by
  simp [valueAt]

@[simp] theorem latest_concat :
    latest (history ++ [checkpoint]) = checkpoint.votes := by
  simp [latest]

theorem valueAt_append_later
    (after : ∀ checkpoint ∈ later, timepoint < checkpoint.fromBlock) :
    valueAt (history ++ later) timepoint = valueAt history timepoint := by
  induction later using List.reverseRecOn with
  | nil => rw [List.append_nil]
  | append_singleton front last ih =>
      have lastAfter := after last (List.mem_append_right _ List.mem_cons_self)
      rw [← List.append_assoc, valueAt_concat, if_neg (by omega)]
      exact ih fun checkpoint member =>
        after checkpoint (List.mem_append_left _ member)

theorem valueAt_past
    (past : ∀ checkpoint ∈ history, checkpoint.fromBlock ≤ timepoint) :
    valueAt history timepoint = latest history := by
  induction history using List.reverseRecOn with
  | nil => rfl
  | append_singleton front last _ =>
      rw [valueAt_concat, latest_concat, if_pos]
      exact past last (List.mem_append_right _ List.mem_cons_self)

end

@[simp] theorem write_nil :
    write ([] : List (Checkpoint α)) block value = [⟨block, value⟩] := rfl

theorem write_concat :
    write (history ++ [checkpoint]) block value =
      if checkpoint.fromBlock = block then history ++ [⟨block, value⟩]
      else history ++ [checkpoint] ++ [⟨block, value⟩] := by
  rw [write, List.getLast?_concat, List.dropLast_concat]

/-- A write follows what earlier blocks wrote, and hides no more. -/
theorem Ordered.write_follows (ordered : Ordered history now)
    (passed : now ≤ block) (value : α) :
    ∃ front, write history block value = front ++ [⟨block, value⟩] ∧
      (front.Pairwise fun earlier later =>
        earlier.fromBlock < later.fromBlock) ∧
      (∀ checkpoint ∈ front, checkpoint.fromBlock < block) ∧
      ∀ [Zero α], ∀ timepoint < block,
        valueAt front timepoint = valueAt history timepoint := by
  induction history using List.reverseRecOn with
  | nil =>
      exact ⟨[], rfl, .nil, fun _ member => absurd member List.not_mem_nil,
        fun _ _ => rfl⟩
  | append_singleton front last _ =>
      obtain ⟨increasing, -, below⟩ :=
        List.pairwise_append.mp ordered.increasing
      have lastPast : last.fromBlock ≤ now :=
        ordered.past last (List.mem_append_right _ List.mem_cons_self)
      rw [write_concat]
      by_cases same : last.fromBlock = block
      · refine ⟨front, if_pos same, increasing, ?_, ?_⟩
        · intro checkpoint member
          exact same ▸ below checkpoint member last List.mem_cons_self
        · intro _ timepoint before
          rw [valueAt_concat, if_neg (by omega)]
      · refine ⟨front ++ [last], if_neg same, ordered.increasing, ?_,
          fun _ _ => rfl⟩
        intro checkpoint member
        obtain earlier | isLast := List.mem_append.mp member
        · have := below checkpoint earlier last List.mem_cons_self
          omega
        · rw [List.mem_singleton.mp isLast]
          omega

theorem Ordered.write (ordered : Ordered history now) (passed : now ≤ block)
    (value : α) : Ordered (write history block value) block := by
  obtain ⟨front, written, increasing, before, -⟩ :=
    ordered.write_follows passed value
  rw [written]
  refine ⟨List.pairwise_append.mpr ⟨increasing, List.pairwise_singleton _ _,
    ?_⟩, ?_⟩
  · intro earlier member added isAdded
    rw [List.mem_singleton.mp isAdded]
    exact before earlier member
  · intro checkpoint member
    obtain earlier | isAdded := List.mem_append.mp member
    · exact (before checkpoint earlier).le
    · rw [List.mem_singleton.mp isAdded]

theorem Ordered.latest_write [Zero α] (ordered : Ordered history now)
    (passed : now ≤ block) (value : α) :
    latest (Checkpoints.write history block value) = value := by
  obtain ⟨front, written, -⟩ := ordered.write_follows passed value
  rw [written, latest_concat]

theorem Ordered.valueAt_write [Zero α] (ordered : Ordered history now)
    (passed : now ≤ block) (before : timepoint < block) (value : α) :
    valueAt (Checkpoints.write history block value) timepoint =
      valueAt history timepoint := by
  obtain ⟨front, written, -, -, kept⟩ := ordered.write_follows passed value
  rw [written, valueAt_concat, if_neg (Nat.not_le.mpr before)]
  exact kept timepoint before

section

variable [Zero α]

/-- Bisection for the first checkpoint after `timepoint`. -/
def bisect (history : List (Checkpoint α)) (timepoint low high : Nat) : Nat :=
  if low < high then
    let mid := average low high
    if (unsafeAccess history mid).fromBlock > timepoint then
      bisect history timepoint low mid
    else bisect history timepoint (mid + 1) high
  else high
termination_by high - low
decreasing_by all_goals rw [average_eq]; omega

/-- `_checkpointsLookup` -/
def lookup (history : List (Checkpoint α)) (timepoint : Nat) : α :=
  let length := history.length
  let high :=
    if length > 5 then
      let mid := length - sqrt length
      if (unsafeAccess history mid).fromBlock > timepoint then
        bisect history timepoint 0 mid
      else bisect history timepoint (mid + 1) length
    else bisect history timepoint 0 length
  if high = 0 then 0 else (unsafeAccess history (high - 1)).votes

variable {low mid high pos : Nat}

theorem Ordered.unsafeAccess_lt (ordered : Ordered history now)
    (precedes : pos < mid) (inside : mid < history.length) :
    (unsafeAccess history pos).fromBlock <
      (unsafeAccess history mid).fromBlock := by
  rw [unsafeAccess, unsafeAccess, List.getD_eq_getElem _ _ inside,
    List.getD_eq_getElem _ _ (precedes.trans inside)]
  exact List.pairwise_iff_getElem.mp ordered.increasing pos mid
    (precedes.trans inside) inside precedes

/-- A window of the history: the checkpoints before it are past, those behind
it are not. -/
structure Window (history : List (Checkpoint α)) (timepoint low high : Nat) :
    Prop where
  low_le : low ≤ high
  high_le : high ≤ history.length
  before : ∀ pos < low, (unsafeAccess history pos).fromBlock ≤ timepoint
  after : ∀ pos, high ≤ pos → pos < history.length →
    timepoint < (unsafeAccess history pos).fromBlock

theorem Window.all : Window history timepoint 0 history.length where
  low_le := Nat.zero_le _
  high_le := le_rfl
  before _ impossible := absurd impossible (Nat.not_lt_zero _)
  after _ behind inside := absurd inside (Nat.not_lt.mpr behind)

/-- Looking at one checkpoint of the window drops it and one side of it. -/
theorem Window.narrow (window : Window history timepoint low high)
    (ordered : Ordered history now) (above : low ≤ mid) (below : mid < high) :
    ((unsafeAccess history mid).fromBlock > timepoint →
      Window history timepoint low mid) ∧
    (¬ (unsafeAccess history mid).fromBlock > timepoint →
      Window history timepoint (mid + 1) high) := by
  have inside : mid < history.length := below.trans_le window.high_le
  refine ⟨fun late => ⟨above, inside.le, window.before, ?_⟩,
    fun past => ⟨below, window.high_le, ?_, window.after⟩⟩
  · intro pos behind bounded
    obtain rfl | strictly := Nat.eq_or_lt_of_le behind
    · exact late
    · exact late.trans (ordered.unsafeAccess_lt strictly bounded)
  · intro pos precedes
    obtain rfl | strictly := Nat.eq_or_lt_of_le (Nat.le_of_lt_succ precedes)
    · exact Nat.le_of_not_lt past
    · exact (ordered.unsafeAccess_lt strictly inside).le.trans
        (Nat.le_of_not_lt past)

/-- The bisection closes the window. -/
theorem Window.bisect (window : Window history timepoint low high)
    (ordered : Ordered history now) :
    Window history timepoint (bisect history timepoint low high)
      (bisect history timepoint low high) := by
  fun_induction Checkpoints.bisect history timepoint low high with
  | case1 low high wide mid late ih =>
      have bounds : low ≤ mid ∧ mid < high := by
        have := average_eq low high
        omega
      exact ih ((window.narrow ordered bounds.1 bounds.2).1 late)
  | case2 low high wide mid past ih =>
      have bounds : low ≤ mid ∧ mid < high := by
        have := average_eq low high
        omega
      exact ih ((window.narrow ordered bounds.1 bounds.2).2 past)
  | case3 low high closed =>
      have same : low = high :=
        Nat.le_antisymm window.low_le (Nat.le_of_not_lt closed)
      exact same ▸ window

/-- A closed window stands at the value of its block. -/
theorem Window.valueAt_eq (window : Window history timepoint high high) :
    valueAt history timepoint =
      if high = 0 then 0 else (unsafeAccess history (high - 1)).votes := by
  have later : ∀ checkpoint ∈ history.drop high,
      timepoint < checkpoint.fromBlock := by
    intro checkpoint member
    obtain ⟨pos, inside, rfl⟩ := List.mem_iff_getElem.mp member
    rw [List.length_drop] at inside
    have found := window.after (high + pos) (Nat.le_add_right _ _) (by omega)
    rw [unsafeAccess, List.getD_eq_getElem _ _ (by omega)] at found
    rwa [List.getElem_drop]
  rw [← List.take_append_drop high history, valueAt_append_later later,
    List.take_append_drop]
  by_cases empty : high = 0
  · rw [empty, List.take_zero, valueAt_nil, if_pos rfl]
  · have inside : high - 1 < history.length := by
      have := window.high_le
      omega
    have taken : history.take high =
        history.take (high - 1) ++ [unsafeAccess history (high - 1)] := by
      have succ := List.take_succ_eq_append_getElem inside
      rw [Nat.sub_add_cancel (Nat.pos_of_ne_zero empty)] at succ
      rw [unsafeAccess, List.getD_eq_getElem _ _ inside, succ]
    rw [taken, valueAt_concat, if_pos (window.before _ (by omega)),
      if_neg empty]

/-- The search finds the value at the end of the block. -/
theorem Ordered.lookup_eq (ordered : Ordered history now) (timepoint : Nat) :
    lookup history timepoint = valueAt history timepoint := by
  have guessed : Window history timepoint 0 history.length := .all
  unfold lookup
  dsimp only
  split
  · rename_i long
    obtain ⟨least, most⟩ := @sqrt_bounds history.length (by omega)
    obtain ⟨late, past⟩ := guessed.narrow ordered
      (Nat.zero_le (history.length - sqrt history.length)) (by omega)
    split
    · rename_i after
      exact ((late after).bisect ordered).valueAt_eq.symm
    · rename_i before
      exact ((past before).bisect ordered).valueAt_eq.symm
  · exact (guessed.bisect ordered).valueAt_eq.symm

end

end

end Checkpoints
