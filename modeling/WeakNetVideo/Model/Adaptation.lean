import Mathlib.Data.Rat.Defs
import Mathlib.Algebra.Order.Ring.Rat
import WeakNetVideo.Library.Transducer

/-! # Adapting the video to the network

The controller of the sender degrades at once to the level that the measured quality requires. It
recovers one level after five windows in a row that are good enough for the level it is at, with loss
thresholds below those that degrade. Measurements are exact rationals.
-/

namespace WeakNetVideo

/-- The members of `NetworkQuality` that the controller reads. -/
structure NetworkQuality where
  rttMs : ℚ := 0
  lossPercent : ℚ := 0
  jitterMs : ℚ := 0
  transportLossPercent : ℚ := 0
deriving DecidableEq, Repr

structure VideoProfile where
  level : ℤ := 0
  bitrateKbps : ℤ := 2000
  fps : ℤ := 30
  width : ℤ := 1280
  height : ℤ := 720
deriving DecidableEq, Repr

/-- `kProfiles`, from the best level to the worst. -/
def kProfiles : Vector VideoProfile 5 :=
  #v[⟨0, 2000, 30, 1280, 720⟩, ⟨1, 1200, 24, 960, 540⟩, ⟨2, 600, 15, 640, 360⟩, ⟨3, 300, 10, 426, 240⟩,
    ⟨4, 150, 5, 320, 180⟩]

/-- `kRecoveryLossThreshold`, by the level that is left. -/
def kRecoveryLossThreshold : Vector ℚ 5 := #v[0, 1, 7, 25, 50]

/-- The windows in a row that a recovery takes. -/
def recoveryWindowLimit : ℕ := 5

/-- `profile_for_level`. -/
def profileForLevel (maxVideoKbps : ℤ) (level : ℕ) : VideoProfile :=
  let profile := kProfiles[min level 4]
  { profile with bitrateKbps := min profile.bitrateKbps maxVideoKbps }

/-- The members of `VideoAdaptationController`; a level indexes both tables. -/
structure VideoAdaptationController where
  maxVideoKbps : ℤ
  level : ℕ := 0
  recoveryWindows : ℕ := 0
  profile : VideoProfile
  levelBound : level < 5 := by decide

/-- The constructor, with the bit rate clamped to what the profiles span. -/
def VideoAdaptationController.fresh (maxVideoKbps : ℤ) : VideoAdaptationController where
  maxVideoKbps := max 150 (min maxVideoKbps 2000)
  profile := profileForLevel (max 150 (min maxVideoKbps 2000)) 0

/-- The loss that decides: the larger of the two that are measured. -/
def NetworkQuality.loss (quality : NetworkQuality) : ℚ :=
  max quality.lossPercent quality.transportLossPercent

/-- The level that the loss alone requires. -/
def lossLevel (loss : ℚ) : ℕ :=
  if loss > 60 then 4 else if loss > 30 then 3 else if loss > 10 then 2 else if loss > 3 then 1 else 0

/-- The level that the round trip time requires. -/
def rttLevel (rttMs : ℚ) : ℕ :=
  if rttMs > 350 then 3 else if rttMs > 180 then 2 else 0

/-- The level that the jitter requires. -/
def jitterLevel (jitterMs : ℚ) : ℕ :=
  if jitterMs > 50 then 1 else 0

/-- `required_level` once all measurements are seen. -/
def NetworkQuality.requiredLevel (quality : NetworkQuality) : ℕ :=
  max (max (lossLevel quality.loss) (rttLevel quality.rttMs)) (jitterLevel quality.jitterMs)

theorem NetworkQuality.requiredLevel_lt (quality : NetworkQuality) : quality.requiredLevel < 5 := by
  simp only [requiredLevel, lossLevel, rttLevel, jitterLevel]
  split_ifs <;> decide

/-- The window is good enough to count towards leaving the level. -/
def NetworkQuality.Recovers (quality : NetworkQuality) (level : ℕ) (bound : level < 5) : Prop :=
  0 < level ∧ quality.loss < kRecoveryLossThreshold[level] ∧ quality.rttMs < 150 ∧ quality.jitterMs < 40

instance (quality : NetworkQuality) (level : ℕ) (bound : level < 5) :
    Decidable (quality.Recovers level bound) :=
  inferInstanceAs (Decidable (0 < level ∧ quality.loss < kRecoveryLossThreshold[level] ∧
    quality.rttMs < 150 ∧ quality.jitterMs < 40))

namespace VideoAdaptationController

/-- The controller at a level it moved to, with its profile and no window counted. -/
def moveTo (c : VideoAdaptationController) (level : ℕ) (bound : level < 5) : VideoAdaptationController where
  maxVideoKbps := c.maxVideoKbps
  level := level
  profile := profileForLevel c.maxVideoKbps level
  levelBound := bound

/-- The controller at its level, with its profile and some windows counted. -/
def count (c : VideoAdaptationController) (windows : ℕ) : VideoAdaptationController :=
  { c with recoveryWindows := windows, profile := profileForLevel c.maxVideoKbps c.level }

/-- `update`. -/
def update (c : VideoAdaptationController) (quality : NetworkQuality) : VideoAdaptationController :=
  if quality.requiredLevel > c.level then c.moveTo quality.requiredLevel quality.requiredLevel_lt
  else if quality.Recovers c.level c.levelBound then
    if c.recoveryWindows + 1 ≥ recoveryWindowLimit then
      c.moveTo (c.level - 1) (Nat.lt_of_le_of_lt (Nat.sub_le ..) c.levelBound)
    else c.count (c.recoveryWindows + 1)
  else c.count 0

end VideoAdaptationController

/-- The controller over a run, with the profile that each update returns. -/
def adaptation : Transducer VideoAdaptationController NetworkQuality VideoProfile where
  step c quality := (c.update quality, (c.update quality).profile)

end WeakNetVideo
