import RiverProtocol.River.Progress

/-!
# Reporting frames

A frame is a run of epochs of fixed length.  `getCurrentFrame` finds its first
epoch by counting from genesis, and turns that epoch into timestamps by
products alone, so its two times count from zero.
-/

namespace RiverProtocol

open Checked Outcome

/-- What `getCurrentFrame` returns. -/
structure Frame where
  startEpochId : Nat
  startTime : Nat
  endTime : Nat
  deriving DecidableEq, Repr

namespace CLSpec

/-- A spec that the divisions of the frame functions accept. -/
structure Positive (cls : CLSpec) : Prop where
  epochsPerFrame : 0 < cls.epochsPerFrame
  slotsPerEpoch : 0 < cls.slotsPerEpoch
  secondsPerSlot : 0 < cls.secondsPerSlot

def secondsPerFrame (cls : CLSpec) : Nat :=
  cls.epochsPerFrame * cls.slotsPerEpoch * cls.secondsPerSlot

/-- The number of frames completed since genesis. -/
def framesSince (cls : CLSpec) (timestamp : Nat) : Nat :=
  (timestamp - cls.genesisTime) / cls.secondsPerFrame

/-- The frame with a given number, timed from zero. -/
def frame (cls : CLSpec) (number : Nat) : Frame where
  startEpochId := number * cls.epochsPerFrame
  startTime := number * cls.secondsPerFrame
  endTime := (number + 1) * cls.secondsPerFrame - 1

end CLSpec

namespace River

/-- `getCurrentEpochId` -/
def getCurrentEpochId (river : River) (timestamp : Nat) : Except Error Nat :=
  currentEpoch river.config.clSpec timestamp

/-- `getFrameFirstEpochId` -/
def getFrameFirstEpochId (river : River) (epochId : Nat) :
    Except Error Nat := do
  let position ← umod epochId river.config.clSpec.epochsPerFrame
  usub epochId position

/-- `getCurrentFrame` -/
def getCurrentFrame (river : River) (timestamp : Nat) :
    Except Error Frame := do
  let cls := river.config.clSpec
  let current ← currentEpoch cls timestamp
  let position ← umod current cls.epochsPerFrame
  let startEpochId ← usub current position
  let startSlot ← umul startEpochId cls.slotsPerEpoch
  let startTime ← umul startSlot cls.secondsPerSlot
  let endEpochId ← uadd startEpochId cls.epochsPerFrame
  let endSlot ← umul endEpochId cls.slotsPerEpoch
  let afterEnd ← umul endSlot cls.secondsPerSlot
  let endTime ← usub afterEnd 1
  return { startEpochId, startTime, endTime }

end River

namespace CLSpec

theorem Positive.secondsPerFrame {cls : CLSpec} (positive : cls.Positive) :
    0 < cls.secondsPerFrame :=
  Nat.mul_pos (Nat.mul_pos positive.epochsPerFrame positive.slotsPerEpoch)
    positive.secondsPerSlot

theorem framesSince_eq (cls : CLSpec) (timestamp : Nat) :
    (timestamp - cls.genesisTime) / cls.secondsPerSlot / cls.slotsPerEpoch /
      cls.epochsPerFrame = cls.framesSince timestamp := by
  rw [Nat.div_div_eq_div_mul, Nat.div_div_eq_div_mul, CLSpec.framesSince,
    CLSpec.secondsPerFrame]
  congr 1
  ring

theorem mul_secondsPerFrame (cls : CLSpec) (number : Nat) :
    number * cls.epochsPerFrame * cls.slotsPerEpoch * cls.secondsPerSlot =
      number * cls.secondsPerFrame := by
  rw [CLSpec.secondsPerFrame]
  ring

/-- Where the end of a frame is a word so is every product before it. -/
theorem Positive.products_lt {cls : CLSpec} (positive : cls.Positive)
    {number : Nat}
    (fits : (number + 1) * cls.secondsPerFrame < wordLimit) :
    number * cls.epochsPerFrame * cls.slotsPerEpoch < wordLimit ∧
      number * cls.secondsPerFrame < wordLimit ∧
      (number + 1) * cls.epochsPerFrame < wordLimit ∧
      (number + 1) * cls.epochsPerFrame * cls.slotsPerEpoch < wordLimit := by
  have endSlots : (number + 1) * cls.epochsPerFrame * cls.slotsPerEpoch <
      wordLimit := by
    rw [← mul_secondsPerFrame] at fits
    exact (Nat.le_mul_of_pos_right _ positive.secondsPerSlot).trans_lt fits
  have endEpochs : (number + 1) * cls.epochsPerFrame < wordLimit :=
    (Nat.le_mul_of_pos_right _ positive.slotsPerEpoch).trans_lt endSlots
  have startSlots : number * cls.epochsPerFrame * cls.slotsPerEpoch <
      wordLimit := by
    refine (Nat.mul_le_mul_right _ (Nat.mul_le_mul_right _ ?_)).trans_lt
      endSlots
    exact Nat.le_succ _
  have starts : number * cls.secondsPerFrame < wordLimit :=
    (Nat.mul_le_mul_right _ (Nat.le_succ _)).trans_lt fits
  exact ⟨startSlots, starts, endEpochs, endSlots⟩

theorem sub_mod_eq (epoch length : Nat) :
    epoch - epoch % length = epoch / length * length := by
  have whole := Nat.div_add_mod' epoch length
  omega

end CLSpec

namespace River

variable {river : River} {timestamp : Nat}

theorem currentEpoch_eq_ok {cls : CLSpec} {epoch : Nat}
    (positive : cls.Positive) :
    currentEpoch cls timestamp = .ok epoch ↔
      cls.genesisTime ≤ timestamp ∧
        (timestamp - cls.genesisTime) / cls.secondsPerSlot /
          cls.slotsPerEpoch = epoch := by
  have seconds := positive.secondsPerSlot.ne'
  have slots := positive.slotsPerEpoch.ne'
  simp [currentEpoch, bind_eq_ok, seconds, slots]

theorem getFrameFirstEpochId_eq (positive : river.config.clSpec.Positive)
    (epochId : Nat) :
    river.getFrameFirstEpochId epochId =
      .ok (epochId / river.config.clSpec.epochsPerFrame *
        river.config.clSpec.epochsPerFrame) := by
  rw [getFrameFirstEpochId, umod_of_ne positive.epochsPerFrame.ne', ok_bind,
    usub_of_le (Nat.mod_le _ _), CLSpec.sub_mod_eq]

/-- The frame returned carries the number counted from genesis and the times
counted from zero. -/
theorem getCurrentFrame_eq_ok (positive : river.config.clSpec.Positive)
    {frame : Frame} :
    river.getCurrentFrame timestamp = .ok frame ↔
      river.config.clSpec.genesisTime ≤ timestamp ∧
        (river.config.clSpec.framesSince timestamp + 1) *
            river.config.clSpec.secondsPerFrame < wordLimit ∧
          river.config.clSpec.frame
            (river.config.clSpec.framesSince timestamp) = frame := by
  generalize specified : river.config.clSpec = cls at positive ⊢
  have after (number : Nat) :
      number * cls.epochsPerFrame + cls.epochsPerFrame =
        (number + 1) * cls.epochsPerFrame := by
    ring
  simp only [getCurrentFrame, specified, bind_eq_ok, pure_eq_ok,
    currentEpoch_eq_ok positive, umod_eq_ok, usub_eq_ok, umul_eq_ok,
    uadd_eq_ok]
  constructor
  · rintro ⟨_, ⟨begun, rfl⟩, _, ⟨-, rfl⟩, _, ⟨-, rfl⟩, _, ⟨-, rfl⟩, _,
      ⟨-, rfl⟩, _, ⟨-, rfl⟩, _, ⟨-, rfl⟩, _, ⟨fits, rfl⟩, _, ⟨-, rfl⟩, rfl⟩
    rw [CLSpec.sub_mod_eq, CLSpec.framesSince_eq, after,
      CLSpec.mul_secondsPerFrame] at fits
    refine ⟨begun, fits, ?_⟩
    rw [CLSpec.sub_mod_eq, CLSpec.framesSince_eq, after,
      CLSpec.mul_secondsPerFrame, CLSpec.mul_secondsPerFrame]
    rfl
  · rintro ⟨begun, fits, rfl⟩
    refine ⟨_, ⟨begun, rfl⟩, _, ⟨positive.epochsPerFrame.ne', rfl⟩, _,
      ⟨Nat.mod_le _ _, rfl⟩, ?_⟩
    rw [CLSpec.sub_mod_eq, CLSpec.framesSince_eq, after]
    obtain ⟨startSlots, starts, endEpochs, endSlots⟩ :=
      positive.products_lt fits
    have ends : 1 ≤ (cls.framesSince timestamp + 1) * cls.secondsPerFrame :=
      Nat.mul_pos (Nat.succ_pos _) positive.secondsPerFrame
    refine ⟨_, ⟨startSlots, rfl⟩, _, ⟨?_, rfl⟩, _, ⟨endEpochs, rfl⟩, _,
      ⟨endSlots, rfl⟩, _, ⟨?_, rfl⟩, _, ⟨?_, rfl⟩, ?_⟩
    · rw [CLSpec.mul_secondsPerFrame]
      exact starts
    · rw [CLSpec.mul_secondsPerFrame]
      exact fits
    · rw [CLSpec.mul_secondsPerFrame]
      exact ends
    · rw [CLSpec.mul_secondsPerFrame, CLSpec.mul_secondsPerFrame]
      rfl

/-- The frame at a timestamp holds the timestamp and starts at the first epoch
of the frame of the current epoch, and the frame one second later is the same
or starts right after it. -/
def TilesAt (river : River) (timestamp : Nat) : Prop :=
  ∃ frame, river.getCurrentFrame timestamp = .ok frame ∧
    (frame.startTime ≤ timestamp ∧ timestamp ≤ frame.endTime) ∧
    (∃ epoch, river.getCurrentEpochId timestamp = .ok epoch ∧
      river.getFrameFirstEpochId epoch = .ok frame.startEpochId) ∧
    ∀ next, river.getCurrentFrame (timestamp + 1) = .ok next →
      next = frame ∨ next.startTime = frame.endTime + 1

theorem startTime_frame_succ {cls : CLSpec} (positive : cls.Positive)
    (number : Nat) :
    (cls.frame (number + 1)).startTime = (cls.frame number).endTime + 1 :=
  (Nat.sub_add_cancel
    (Nat.mul_pos (Nat.succ_pos number) positive.secondsPerFrame)).symm

theorem framesSince_succ {cls : CLSpec} (begun : cls.genesisTime ≤ timestamp) :
    cls.framesSince (timestamp + 1) = cls.framesSince timestamp ∨
      cls.framesSince (timestamp + 1) = cls.framesSince timestamp + 1 := by
  rw [CLSpec.framesSince, CLSpec.framesSince, Nat.sub_add_comm begun,
    Nat.succ_div]
  split
  · exact .inr rfl
  · exact .inl rfl

theorem startTime_frame_le (cls : CLSpec) (timestamp : Nat) :
    (cls.frame (cls.framesSince timestamp)).startTime ≤ timestamp :=
  (Nat.div_mul_le_self _ _).trans (Nat.sub_le _ _)

/-- The end of the frame misses the genesis time. -/
theorem le_endTime_frame_iff {cls : CLSpec} (positive : cls.Positive)
    (begun : cls.genesisTime ≤ timestamp) :
    timestamp ≤ (cls.frame (cls.framesSince timestamp)).endTime ↔
      (timestamp - cls.genesisTime) % cls.secondsPerFrame + cls.genesisTime <
        cls.secondsPerFrame := by
  have length := positive.secondsPerFrame
  have whole := Nat.div_add_mod' (timestamp - cls.genesisTime)
    cls.secondsPerFrame
  have next := Nat.add_one_mul (cls.framesSince timestamp)
    cls.secondsPerFrame
  simp only [CLSpec.frame, CLSpec.framesSince] at next ⊢
  omega

theorem getFrameFirstEpochId_current
    (positive : river.config.clSpec.Positive)
    (begun : river.config.clSpec.genesisTime ≤ timestamp) :
    ∃ epoch, river.getCurrentEpochId timestamp = .ok epoch ∧
      river.getFrameFirstEpochId epoch = .ok (river.config.clSpec.frame
        (river.config.clSpec.framesSince timestamp)).startEpochId := by
  refine ⟨_, (currentEpoch_eq_ok positive).mpr ⟨begun, rfl⟩, ?_⟩
  rw [getFrameFirstEpochId_eq positive, CLSpec.framesSince_eq]
  rfl

theorem tilesAt_iff (positive : river.config.clSpec.Positive)
    (begun : river.config.clSpec.genesisTime ≤ timestamp) :
    river.TilesAt timestamp ↔
      (timestamp - river.config.clSpec.genesisTime) %
            river.config.clSpec.secondsPerFrame +
          river.config.clSpec.genesisTime <
        river.config.clSpec.secondsPerFrame ∧
      (river.config.clSpec.framesSince timestamp + 1) *
        river.config.clSpec.secondsPerFrame < wordLimit := by
  constructor
  · rintro ⟨frame, returned, ⟨-, ends⟩, -, -⟩
    obtain ⟨-, fits, rfl⟩ := (getCurrentFrame_eq_ok positive).mp returned
    exact ⟨(le_endTime_frame_iff positive begun).mp ends, fits⟩
  · rintro ⟨within, fits⟩
    refine ⟨_, (getCurrentFrame_eq_ok positive).mpr ⟨begun, fits, rfl⟩,
      ⟨startTime_frame_le _ _, (le_endTime_frame_iff positive begun).mpr within⟩,
      getFrameFirstEpochId_current positive begun, ?_⟩
    intro next returned
    obtain ⟨-, -, rfl⟩ := (getCurrentFrame_eq_ok positive).mp returned
    cases framesSince_succ begun with
    | inl same => exact .inl (by rw [same])
    | inr later =>
        right
        rw [later, startTime_frame_succ positive]

/-- The last second of the first frame after a genesis other than zero is past
the end that the code gives it. -/
theorem genesisTime_eq_zero_of_tiles (positive : river.config.clSpec.Positive)
    (fits : river.config.clSpec.secondsPerFrame < wordLimit)
    (tiles : ∀ timestamp, river.config.clSpec.genesisTime ≤ timestamp →
      (river.config.clSpec.framesSince timestamp + 1) *
        river.config.clSpec.secondsPerFrame < wordLimit →
      river.TilesAt timestamp) :
    river.config.clSpec.genesisTime = 0 := by
  have length := positive.secondsPerFrame
  generalize last : river.config.clSpec.genesisTime +
    (river.config.clSpec.secondsPerFrame - 1) = timestamp
  have elapsed : timestamp - river.config.clSpec.genesisTime =
      river.config.clSpec.secondsPerFrame - 1 := by
    omega
  have begun : river.config.clSpec.genesisTime ≤ timestamp := by
    omega
  have first : river.config.clSpec.framesSince timestamp = 0 := by
    rw [CLSpec.framesSince, elapsed]
    exact Nat.div_eq_of_lt (Nat.sub_lt length Nat.one_pos)
  have tiled := tiles timestamp begun (by rw [first]; omega)
  have within := ((tilesAt_iff positive begun).mp tiled).1
  rw [elapsed, Nat.mod_eq_of_lt (Nat.sub_lt length Nat.one_pos)] at within
  omega

/-- Frames tile time where the seconds since the start of the frame and the
genesis time together stay below the length of a frame.  They do so at every
timestamp for genesis zero alone. -/
theorem frames_tile_iff (river : River)
    (positive : river.config.clSpec.Positive)
    (fits : river.config.clSpec.secondsPerFrame < wordLimit) :
    (∀ timestamp, river.config.clSpec.genesisTime ≤ timestamp →
      (river.TilesAt timestamp ↔
        (timestamp - river.config.clSpec.genesisTime) %
              river.config.clSpec.secondsPerFrame +
            river.config.clSpec.genesisTime <
          river.config.clSpec.secondsPerFrame ∧
        (river.config.clSpec.framesSince timestamp + 1) *
          river.config.clSpec.secondsPerFrame < wordLimit)) ∧
    ((∀ timestamp, river.config.clSpec.genesisTime ≤ timestamp →
      (river.config.clSpec.framesSince timestamp + 1) *
        river.config.clSpec.secondsPerFrame < wordLimit →
      river.TilesAt timestamp) ↔ river.config.clSpec.genesisTime = 0) := by
  refine ⟨fun timestamp begun => tilesAt_iff positive begun,
    genesisTime_eq_zero_of_tiles positive fits, ?_⟩
  intro genesis timestamp begun room
  refine (tilesAt_iff positive begun).mpr ⟨?_, room⟩
  rw [genesis, Nat.add_zero]
  exact Nat.mod_lt _ positive.secondsPerFrame

section Sample

def mainnetSpec : CLSpec :=
  { epochsPerFrame := 225, slotsPerEpoch := 32, secondsPerSlot := 12,
    genesisTime := 1606824023, epochsToAssumedFinality := 4 }

/-- An empty River with a given spec. -/
def specified (cls : CLSpec) : River where
  balance := 0
  balanceToDeposit := 0
  committedBalance := 0
  balanceToRedeem := 0
  depositedValidatorCount := 0
  lastConsensusLayerReport :=
    { epoch := 0, validatorsBalance := 0, validatorsSkimmedBalance := 0,
      validatorsExitedBalance := 0, validatorsExitingBalance := 0,
      validatorsCount := 0, rebalanceDepositToRedeemMode := false,
      slashingContainmentMode := false }
  shares := 0
  sharesPerOwner := fun _ => 0
  approvals := fun _ _ => 0
  config :=
    { administrable := { admin := .ofNat 10, pendingAdmin := .zero }
      oracle := .ofNat 11
      keeper := .ofNat 12
      collector := .ofNat 13
      elFeeRecipient := .ofNat 14
      coverageFund := .ofNat 15
      allowlist := .ofNat 16
      globalFee := ⟨500, by decide⟩
      metadataURI := ""
      clSpec := cls
      reportBounds :=
        { annualAprUpperBound := 1000, relativeLowerBound := 250 }
      dailyCommittableLimits :=
        { minDailyNetCommittableAmount := 3200 * ether
          maxDailyRelativeCommittableAmount := 1000 } }

theorem mainnetSpec_positive : mainnetSpec.Positive := by
  constructor <;> decide

theorem frames_tile_iff_mainnet :
    (specified mainnetSpec).TilesAt 1700000000 ↔
      (1700000000 - 1606824023) % 86400 + 1606824023 < 86400 ∧
        (mainnetSpec.framesSince 1700000000 + 1) * 86400 < wordLimit :=
  (frames_tile_iff (specified mainnetSpec) mainnetSpec_positive
    (by decide)).1 1700000000 (by decide)

/-- The frame of a main network timestamp ends before genesis. -/
theorem frames_miss_mainnet :
    (specified mainnetSpec).getCurrentFrame 1700000000 =
        .ok { startEpochId := 242550, startTime := 93139200,
              endTime := 93225599 } ∧
      ¬ (specified mainnetSpec).TilesAt 1700000000 := by
  constructor
  · exact (getCurrentFrame_eq_ok mainnetSpec_positive).mpr (by decide)
  · intro tiled
    have within := ((tilesAt_iff mainnetSpec_positive (by decide)).mp tiled).1
    exact absurd within (by decide)

end Sample

end River

end RiverProtocol
