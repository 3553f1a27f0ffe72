import Mathlib.Tactic.IntervalCases
import Mathlib.Tactic.Linarith
import WeakNetVideo.Model.Adaptation

/-! # Monotone adaptation

A network that is worse at every measurement never gets the better video. The windows counted towards a
recovery are hidden state: of two controllers at one level, the one on the worse network has counted no
more of them.
-/

namespace WeakNetVideo

open VideoAdaptationController

/-- A measurement is at least as bad as another in everything that the controller looks at. -/
structure NetworkQuality.NoBetter (quality worse : NetworkQuality) : Prop where
  loss : quality.loss ≤ worse.loss
  rtt : quality.rttMs ≤ worse.rttMs
  jitter : quality.jitterMs ≤ worse.jitterMs

/-- A profile asks no more of the network than another. -/
structure VideoProfile.Below (profile lower : VideoProfile) : Prop where
  level : profile.level ≤ lower.level
  bitrate : lower.bitrateKbps ≤ profile.bitrateKbps

variable {quality worse : NetworkQuality} {c d : VideoAdaptationController}

/-! ## The tables -/

theorem lossLevel_mono {low high : ℚ} (le : low ≤ high) : lossLevel low ≤ lossLevel high := by
  simp only [lossLevel]
  split_ifs <;> first | omega | (exfalso; linarith)

private theorem rttLevel_mono {low high : ℚ} (le : low ≤ high) : rttLevel low ≤ rttLevel high := by
  simp only [rttLevel]
  split_ifs <;> first | omega | (exfalso; linarith)

private theorem jitterLevel_mono {low high : ℚ} (le : low ≤ high) : jitterLevel low ≤ jitterLevel high := by
  simp only [jitterLevel]
  split_ifs <;> first | omega | (exfalso; linarith)

/-- What requires a level, a worse measurement requires too. -/
theorem requiredLevel_mono (le : quality.NoBetter worse) : quality.requiredLevel ≤ worse.requiredLevel :=
  max_le_max (max_le_max (lossLevel_mono le.loss) (rttLevel_mono le.rtt)) (jitterLevel_mono le.jitter)

/-- A window that a worse network recovers in is one that a better network recovers in. -/
theorem recovers_of_worse {level : ℕ} {bound : level < 5} (le : quality.NoBetter worse)
    (recovers : worse.Recovers level bound) : quality.Recovers level bound := by
  obtain ⟨positive, loss, rtt, jitter⟩ := recovers
  exact ⟨positive, lt_of_le_of_lt le.loss loss, lt_of_le_of_lt le.rtt rtt,
    lt_of_le_of_lt le.jitter jitter⟩

/-- The loss thresholds that recover a level lie at or below those that require it. -/
private theorem lossLevel_lt {loss : ℚ} {level : ℕ} (bound : level < 5) (positive : 0 < level)
    (below : loss < kRecoveryLossThreshold[level]) : lossLevel loss < level := by
  simp only [lossLevel]
  interval_cases level <;> simp only [kRecoveryLossThreshold, Vector.getElem_mk, List.getElem_toArray,
    List.getElem_cons_succ, List.getElem_cons_zero] at below <;>
      split_ifs <;> first | omega | (exfalso; linarith)

/-- A window that counts towards leaving a level does not require that level. -/
theorem requiredLevel_lt_of_recovers {level : ℕ} {bound : level < 5}
    (recovers : quality.Recovers level bound) : quality.requiredLevel < level := by
  obtain ⟨positive, loss, rtt, jitter⟩ := recovers
  have loss := lossLevel_lt bound positive loss
  have rtt : rttLevel quality.rttMs = 0 := by rw [rttLevel, if_neg (by linarith), if_neg (by linarith)]
  have jitter : jitterLevel quality.jitterMs = 0 := by rw [jitterLevel, if_neg (by linarith)]
  simp only [NetworkQuality.requiredLevel, rtt, jitter]
  omega

private theorem kProfiles_below : ∀ low high : Fin 5, low ≤ high →
    kProfiles[low.val].level ≤ kProfiles[high.val].level ∧
      kProfiles[high.val].bitrateKbps ≤ kProfiles[low.val].bitrateKbps := by decide

theorem profileForLevel_below (maxVideoKbps : ℤ) {low high : ℕ} (le : low ≤ high) (bound : high < 5) :
    (profileForLevel maxVideoKbps low).Below (profileForLevel maxVideoKbps high) := by
  obtain ⟨level, bitrate⟩ := kProfiles_below ⟨low, by omega⟩ ⟨high, bound⟩ le
  have lowIndex : min low 4 = low := by omega
  have highIndex : min high 4 = high := by omega
  constructor
  · simpa only [profileForLevel, lowIndex, highIndex] using level
  · simp only [profileForLevel, lowIndex, highIndex]
    exact min_le_min_right _ bitrate

/-! ## Two controllers -/

/-- A controller is held back at least as far as another: at a worse level, or at the same level with no
more windows counted. -/
structure VideoAdaptationController.HeldBack (c d : VideoAdaptationController) : Prop where
  config : d.maxVideoKbps = c.maxVideoKbps
  level : c.level ≤ d.level
  windows : c.level = d.level → d.recoveryWindows ≤ c.recoveryWindows

/-- The three ways an update goes. -/
theorem update_cases (c : VideoAdaptationController) (quality : NetworkQuality) :
    (c.level < quality.requiredLevel ∧ (c.update quality).level = quality.requiredLevel ∧
      (c.update quality).recoveryWindows = 0) ∨
    (quality.Recovers c.level c.levelBound ∧ recoveryWindowLimit ≤ c.recoveryWindows + 1 ∧
      (c.update quality).level = c.level - 1 ∧ (c.update quality).recoveryWindows = 0) ∨
    (quality.Recovers c.level c.levelBound ∧ c.recoveryWindows + 1 < recoveryWindowLimit ∧
      (c.update quality).level = c.level ∧ (c.update quality).recoveryWindows = c.recoveryWindows + 1) ∨
    (¬ quality.Recovers c.level c.levelBound ∧ quality.requiredLevel ≤ c.level ∧
      (c.update quality).level = c.level ∧ (c.update quality).recoveryWindows = 0) := by
  by_cases degrades : quality.requiredLevel > c.level
  · exact .inl ⟨degrades, by simp [update, degrades, moveTo]⟩
  by_cases recovers : quality.Recovers c.level c.levelBound
  · by_cases enough : c.recoveryWindows + 1 ≥ recoveryWindowLimit
    · exact .inr (.inl ⟨recovers, enough, by simp [update, degrades, recovers, enough, moveTo]⟩)
    · exact .inr (.inr (.inl ⟨recovers, by omega, by simp [update, degrades, recovers, enough, count]⟩))
  · exact .inr (.inr (.inr ⟨recovers, by omega, by simp [update, degrades, recovers, count]⟩))

theorem update_config (c : VideoAdaptationController) (quality : NetworkQuality) :
    (c.update quality).maxVideoKbps = c.maxVideoKbps := by
  simp only [update]
  split_ifs <;> rfl

theorem update_profile (c : VideoAdaptationController) (quality : NetworkQuality) :
    (c.update quality).profile = profileForLevel c.maxVideoKbps (c.update quality).level := by
  simp only [update]
  split_ifs <;> rfl

/-- An update leaves the controller at no better a level than its measurement requires. -/
theorem requiredLevel_le_update (c : VideoAdaptationController) (quality : NetworkQuality) :
    quality.requiredLevel ≤ (c.update quality).level := by
  rcases update_cases c quality with ⟨_, moved, _⟩ | ⟨recovers, _, moved, _⟩ | ⟨recovers, _, stayed, _⟩ |
    ⟨_, below, stayed, _⟩
  · omega
  · have := requiredLevel_lt_of_recovers recovers
    omega
  · have := requiredLevel_lt_of_recovers recovers
    omega
  · omega

private theorem recovers_of_same_level (le : quality.NoBetter worse) (same : c.level = d.level)
    (recovers : worse.Recovers d.level d.levelBound) : quality.Recovers c.level c.levelBound := by
  obtain ⟨config, level, windows, profile, bound⟩ := c
  subst same
  exact recovers_of_worse le recovers

/-- One window keeps the controller of the worse network held back. -/
theorem heldBack_update (le : quality.NoBetter worse) (held : c.HeldBack d) :
    (c.update quality).HeldBack (d.update worse) := by
  obtain ⟨config, level, windows⟩ := held
  have required := requiredLevel_mono le
  have reached := requiredLevel_le_update d worse
  refine ⟨by simp only [update_config, config], ?_, ?_⟩
  · -- Only the controller at the worse level moves towards the other, one level at a time; at one level
    -- it does so only in a window in which the other does too.
    rcases update_cases c quality with ⟨_, moved, _⟩ | ⟨_, _, moved, _⟩ | ⟨_, few, stayed, _⟩ |
      ⟨stays, _, stayed, _⟩
    · omega
    all_goals
      rcases update_cases d worse with ⟨above', moved', _⟩ | ⟨recovers', enough', moved', _⟩ |
        ⟨_, _, stayed', _⟩ | ⟨_, _, stayed', _⟩
    all_goals try omega
    · have apart : c.level ≠ d.level := fun same => stays (recovers_of_same_level le same recovers')
      omega
  · intro same
    rcases update_cases d worse with ⟨_, _, zero'⟩ | ⟨_, _, _, zero'⟩ | ⟨recovers', _, stayed', counted'⟩ |
      ⟨_, _, _, zero'⟩
    · omega
    · omega
    · -- A window counted on the worse network: the other did not just degrade to this level.
      have strict := requiredLevel_lt_of_recovers recovers'
      rcases update_cases c quality with ⟨_, moved, _⟩ | ⟨recovers, _, moved, _⟩ | ⟨_, _, stayed, counted⟩ |
        ⟨stays, _, stayed, _⟩
      · omega
      · have := recovers.1
        omega
      · have := windows (by omega)
        omega
      · exact absurd (recovers_of_same_level le (by omega) recovers') stays
    · omega

/-! ## Whole runs -/

private theorem below_of_heldBack (held : (c.update quality).HeldBack (d.update worse)) :
    (c.update quality).profile.Below (d.update worse).profile := by
  have config := held.config
  simp only [update_config] at config
  rw [update_profile, update_profile, config]
  exact profileForLevel_below _ held.level (d.update worse).levelBound

/-- Fed with measurements that are no better in any window, a controller is never at a better level and
never asks for a higher bit rate. -/
theorem adaptation_monotone (maxVideoKbps : ℤ) (qualities worse : List NetworkQuality)
    (inputs : List.Forall₂ NetworkQuality.NoBetter qualities worse) :
    (adaptation.final (.fresh maxVideoKbps) qualities).level ≤
        (adaptation.final (.fresh maxVideoKbps) worse).level ∧
      List.Forall₂ VideoProfile.Below (adaptation.outputs (.fresh maxVideoKbps) qualities)
        (adaptation.outputs (.fresh maxVideoKbps) worse) := by
  have start : (fresh maxVideoKbps).HeldBack (fresh maxVideoKbps) := ⟨rfl, le_rfl, fun _ => le_rfl⟩
  have step (c d : VideoAdaptationController) (quality worse : NetworkQuality) (held : c.HeldBack d)
      (le : quality.NoBetter worse) : (adaptation.step c quality).1.HeldBack (adaptation.step d worse).1 ∧
        (adaptation.step c quality).2.Below (adaptation.step d worse).2 :=
    ⟨heldBack_update le held, below_of_heldBack (heldBack_update le held)⟩
  obtain ⟨last, profiles⟩ := adaptation.lockstep step start inputs
  exact ⟨last.level, profiles⟩

/-- A link that clears up after one bad window, and one that goes on losing a few packets. -/
private def clearing : List NetworkQuality := ⟨0, 40, 0, 0⟩ :: List.replicate 15 ⟨20, 0, 5, 0⟩
private def lossy : List NetworkQuality := ⟨0, 40, 0, 0⟩ :: List.replicate 15 ⟨20, 3, 5, 5⟩

private theorem lossy_no_better : List.Forall₂ NetworkQuality.NoBetter clearing lossy := by
  apply List.Forall₂.cons ⟨by decide, by decide, by decide⟩
  repeat apply List.Forall₂.cons ⟨by decide, by decide, by decide⟩
  exact .nil

/-- The first is back at the best level after fifteen windows, the second stays one level short of it. -/
theorem adaptation_monotone_clearing :
    (adaptation.final (.fresh 1500) clearing).level = 0 ∧
      (adaptation.final (.fresh 1500) lossy).level = 1 ∧
      (adaptation.final (.fresh 1500) clearing).level ≤ (adaptation.final (.fresh 1500) lossy).level ∧
      List.Forall₂ VideoProfile.Below (adaptation.outputs (.fresh 1500) clearing)
        (adaptation.outputs (.fresh 1500) lossy) := by
  refine ⟨by decide +kernel, by decide +kernel, ?_⟩
  exact adaptation_monotone 1500 clearing lossy lossy_no_better

end WeakNetVideo
