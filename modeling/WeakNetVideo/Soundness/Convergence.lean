import Mathlib.Data.Nat.Find
import WeakNetVideo.Soundness.Hysteresis

/-! # Where the adaptation comes to rest

A quality lets the controller out of some levels and not out of others. The worst level that it does not let
it out of is where it holds a recovering controller. Every window of a run brings the controller at most one
window nearer to the best level and never behind the level that its qualities hold it at, so the level behind a
run is known up to where the qualities hold it, and on a network that stays as it is it is known exactly.
-/

namespace WeakNetVideo

open VideoAdaptationController

variable {quality : NetworkQuality} {c : VideoAdaptationController}

/-! ## The level that holds -/

/-- The worst level that no window of this quality counts towards leaving. -/
def NetworkQuality.restLevel (quality : NetworkQuality) : ℕ :=
  Nat.findGreatest (fun level => ∃ bound : level < 5, ¬ quality.Recovers level bound) 4

private theorem kRecoveryLossThreshold_mono :
    ∀ low high : Fin 5, low ≤ high → kRecoveryLossThreshold.get low ≤ kRecoveryLossThreshold.get high := by
  decide +kernel

/-- What is good enough to leave a level is good enough to leave the levels behind it. -/
private theorem recovers_of_better_level {low high : ℕ} {lowBound : low < 5} (bound : high < 5)
    (le : low ≤ high) (recovers : quality.Recovers low lowBound) : quality.Recovers high bound := by
  obtain ⟨positive, loss, rtt, jitter⟩ := recovers
  refine ⟨by omega, ?_, rtt, jitter⟩
  exact lt_of_lt_of_le loss (kRecoveryLossThreshold_mono ⟨low, lowBound⟩ ⟨high, bound⟩ le)

/-- A quality lets the controller out of exactly the levels behind the one it holds it at. -/
theorem recovers_iff {level : ℕ} {bound : level < 5} :
    quality.Recovers level bound ↔ quality.restLevel < level := by
  constructor
  · intro recovers
    by_contra held
    obtain ⟨restBound, stays⟩ : ∃ bound : quality.restLevel < 5, ¬ quality.Recovers quality.restLevel bound :=
      Nat.findGreatest_spec (m := 0) (P := fun level => ∃ bound : level < 5, ¬ quality.Recovers level bound)
        (Nat.zero_le 4) ⟨by decide, fun recovers => absurd recovers.1 (Nat.lt_irrefl 0)⟩
    exact stays (recovers_of_better_level restBound (Nat.le_of_not_lt held) recovers)
  · intro behind
    by_contra stays
    exact Nat.findGreatest_is_greatest behind (Nat.le_of_lt_succ bound) ⟨bound, stays⟩

theorem requiredLevel_le_restLevel (quality : NetworkQuality) : quality.requiredLevel ≤ quality.restLevel := by
  by_contra above
  have recovers : quality.Recovers quality.requiredLevel quality.requiredLevel_lt :=
    recovers_iff.mpr (Nat.lt_of_not_le above)
  exact absurd (requiredLevel_lt_of_recovers recovers) (Nat.lt_irrefl _)

/-! ## One window -/

/-- The windows in a row that would bring the controller back to the best level. -/
def VideoAdaptationController.windowsToBest (c : VideoAdaptationController) : ℕ :=
  recoveryWindowLimit * c.level - c.recoveryWindows

theorem recoveryWindows_update_lt (c : VideoAdaptationController) (quality : NetworkQuality) :
    (c.update quality).recoveryWindows < recoveryWindowLimit := by
  rcases update_cases c quality with ⟨_, _, zero⟩ | ⟨_, _, _, zero⟩ | ⟨_, few, _, counted⟩ | ⟨_, _, _, zero⟩
  · rw [zero]; decide
  · rw [zero]; decide
  · rw [counted]; exact few
  · rw [zero]; decide

/-- A window brings the controller at most one window nearer to the best level. -/
private theorem windowsToBest_le_update (few : c.recoveryWindows < recoveryWindowLimit) :
    c.windowsToBest - 1 ≤ (c.update quality).windowsToBest := by
  simp only [windowsToBest, recoveryWindowLimit] at few ⊢
  rcases update_cases c quality with ⟨above, moved, zero⟩ | ⟨_, enough, moved, zero⟩ |
    ⟨_, _, stayed, counted⟩ | ⟨_, _, stayed, zero⟩
  · omega
  · simp only [recoveryWindowLimit] at enough
    omega
  · omega
  · omega

/-- A window brings the controller one window nearer, or to where the quality holds it. -/
private theorem windowsToBest_update_le {rest : ℕ} (few : c.recoveryWindows < recoveryWindowLimit)
    (holds : quality.restLevel ≤ rest) :
    (c.update quality).windowsToBest ≤ max (recoveryWindowLimit * rest) (c.windowsToBest - 1) := by
  have required := requiredLevel_le_restLevel quality
  simp only [windowsToBest, recoveryWindowLimit] at few ⊢
  rcases update_cases c quality with ⟨above, moved, zero⟩ | ⟨_, enough, moved, zero⟩ |
    ⟨_, _, stayed, counted⟩ | ⟨stays, _, stayed, zero⟩
  · omega
  · simp only [recoveryWindowLimit] at enough
    omega
  · omega
  · have held : c.level ≤ quality.restLevel := Nat.le_of_not_lt fun behind => stays (recovers_iff.mpr behind)
    omega

/-- No window takes the controller past the level that its quality holds it at. -/
private theorem restLevel_le_update {rest : ℕ} (holds : rest ≤ quality.restLevel) (at_ : rest ≤ c.level) :
    rest ≤ (c.update quality).level := by
  rcases update_cases c quality with ⟨above, moved, _⟩ | ⟨recovers, _, moved, _⟩ | ⟨_, _, stayed, _⟩ |
    ⟨_, _, stayed, _⟩
  · omega
  · have behind := recovers_iff.mp recovers
    omega
  · omega
  · omega

/-! ## Whole runs -/

private theorem level_eq_windowsToBest (few : c.recoveryWindows < recoveryWindowLimit) :
    c.level = (c.windowsToBest + 4) / recoveryWindowLimit := by
  simp only [windowsToBest, recoveryWindowLimit] at few ⊢
  omega

private theorem recoveryWindows_final_lt (few : c.recoveryWindows < recoveryWindowLimit)
    (qualities : List NetworkQuality) :
    (adaptation.final c qualities).recoveryWindows < recoveryWindowLimit := by
  induction qualities generalizing c with
  | nil => exact few
  | cons quality qualities ih => exact ih (recoveryWindows_update_lt c quality)

private theorem windowsToBest_le_final (few : c.recoveryWindows < recoveryWindowLimit)
    (qualities : List NetworkQuality) :
    c.windowsToBest - qualities.length ≤ (adaptation.final c qualities).windowsToBest := by
  induction qualities generalizing c with
  | nil => exact Nat.le_refl _
  | cons quality qualities ih =>
    have step : c.windowsToBest - 1 ≤ (c.update quality).windowsToBest := windowsToBest_le_update few
    have run := ih (recoveryWindows_update_lt c quality)
    rw [List.length_cons, Transducer.final_cons]
    change c.windowsToBest - (qualities.length + 1) ≤ (adaptation.final (c.update quality) qualities).windowsToBest
    omega

private theorem windowsToBest_final_le {rest : ℕ} (few : c.recoveryWindows < recoveryWindowLimit)
    {qualities : List NetworkQuality} (hold : ∀ quality ∈ qualities, quality.restLevel ≤ rest) :
    (adaptation.final c qualities).windowsToBest ≤
      max (recoveryWindowLimit * rest) (c.windowsToBest - qualities.length) := by
  induction qualities generalizing c with
  | nil => exact Nat.le_max_right ..
  | cons quality qualities ih =>
    obtain ⟨holds, hold⟩ := List.forall_mem_cons.mp hold
    have step := windowsToBest_update_le few holds
    have run := ih (recoveryWindows_update_lt c quality) hold
    rw [List.length_cons, Transducer.final_cons]
    change (adaptation.final (c.update quality) qualities).windowsToBest ≤ _
    omega

private theorem restLevel_le_final {rest : ℕ} {qualities : List NetworkQuality}
    (hold : ∀ quality ∈ qualities, rest ≤ quality.restLevel) (at_ : rest ≤ c.level) :
    rest ≤ (adaptation.final c qualities).level := by
  induction qualities generalizing c with
  | nil => exact at_
  | cons quality qualities ih =>
    obtain ⟨holds, hold⟩ := List.forall_mem_cons.mp hold
    exact ih hold (restLevel_le_update holds at_)

private theorem level_bounds {low high : ℕ} {qualities : List NetworkQuality}
    (few : c.recoveryWindows < recoveryWindowLimit)
    (hold : ∀ quality ∈ qualities, low ≤ quality.restLevel ∧ quality.restLevel ≤ high)
    (start : low ≤ c.level) :
    max low (c.level - (c.recoveryWindows + qualities.length) / 5) ≤ (adaptation.final c qualities).level ∧
      (adaptation.final c qualities).level ≤
        max high (c.level - (c.recoveryWindows + qualities.length) / 5) := by
  have lastFew := recoveryWindows_final_lt few qualities
  have level := level_eq_windowsToBest lastFew
  have nearer := windowsToBest_le_final few qualities
  have reached := windowsToBest_final_le few fun quality member => (hold quality member).2
  have held := restLevel_le_final (fun quality member => (hold quality member).1) start
  generalize adaptation.final c qualities = last at *
  simp only [windowsToBest, recoveryWindowLimit] at few level nearer reached
  omega

/-- Behind any history, while the qualities hold the controller between two levels and it starts at the better
of them or behind it: it never passes the better one, no five windows take it more than one level, and five
windows take it one level on as long as it is behind the worse one. -/
theorem adaptation_level_bounds (maxVideoKbps : ℤ) (before qualities : List NetworkQuality) (low high : ℕ)
    (hold : ∀ quality ∈ qualities, low ≤ quality.restLevel ∧ quality.restLevel ≤ high)
    (start : low ≤ (adaptation.final (.fresh maxVideoKbps) before).level) :
    let c := adaptation.final (.fresh maxVideoKbps) before
    let last := adaptation.final (.fresh maxVideoKbps) (before ++ qualities)
    max low (c.level - (c.recoveryWindows + qualities.length) / 5) ≤ last.level ∧
      last.level ≤ max high (c.level - (c.recoveryWindows + qualities.length) / 5) := by
  intro c last
  have run : last = adaptation.final c qualities := Transducer.final_append ..
  rw [run]
  exact level_bounds (recoveryWindows_lt maxVideoKbps before) hold start

/-- A link that loses almost half of its packets, and then none or a few. -/
private def lossyStart : List NetworkQuality := [⟨20, 45, 5, 0⟩]
private def flutter : List NetworkQuality :=
  [⟨20, 0, 5, 0⟩, ⟨20, 5, 5, 0⟩, ⟨20, 0, 5, 0⟩, ⟨20, 0, 5, 5⟩, ⟨20, 4, 5, 0⟩, ⟨20, 0, 5, 0⟩, ⟨20, 0, 5, 0⟩,
    ⟨20, 5, 5, 0⟩, ⟨20, 0, 5, 0⟩, ⟨20, 0, 5, 0⟩]

/-- Ten windows take it from level three to level one. -/
theorem adaptation_level_bounds_flutter :
    (adaptation.final (.fresh 2000) lossyStart).level = 3 ∧
      max 0 (3 - (0 + 10) / 5) ≤ (adaptation.final (.fresh 2000) (lossyStart ++ flutter)).level ∧
      (adaptation.final (.fresh 2000) (lossyStart ++ flutter)).level ≤ max 1 (3 - (0 + 10) / 5) :=
  ⟨by decide +kernel, adaptation_level_bounds 2000 lossyStart flutter 0 1 (by decide +kernel) (Nat.zero_le _)⟩

/-! ## A network that stays as it is -/

private theorem update_level_of_held (held : c.level ≤ quality.restLevel) :
    (c.update quality).level = max quality.requiredLevel c.level := by
  rcases update_cases c quality with ⟨above, moved, _⟩ | ⟨recovers, _⟩ | ⟨recovers, _⟩ | ⟨_, below, stayed, _⟩
  · rw [moved, max_eq_left (Nat.le_of_lt above)]
  · exact absurd (recovers_iff.mp recovers) (Nat.not_lt_of_le held)
  · exact absurd (recovers_iff.mp recovers) (Nat.not_lt_of_le held)
  · rw [stayed, max_eq_right below]

/-- A controller that the quality holds moves at its first window and at no other. -/
private theorem level_replicate_of_held (held : c.level ≤ quality.restLevel) (n : ℕ) :
    (adaptation.final c (List.replicate (n + 1) quality)).level = max quality.requiredLevel c.level := by
  induction n generalizing c with
  | zero => exact update_level_of_held held
  | succ n ih =>
    have moved := update_level_of_held held
    have still : (c.update quality).level ≤ quality.restLevel := by
      rw [moved]
      exact max_le (requiredLevel_le_restLevel quality) held
    rw [List.replicate_succ, Transducer.final_cons]
    calc
      _ = max quality.requiredLevel (c.update quality).level := ih still
      _ = max quality.requiredLevel c.level := by rw [moved, ← max_assoc, max_self]

private theorem level_replicate (few : c.recoveryWindows < recoveryWindowLimit) (n : ℕ) :
    (adaptation.final c (List.replicate (n + 1) quality)).level =
      max quality.requiredLevel
        (min c.level (max quality.restLevel (c.level - (c.recoveryWindows + (n + 1)) / 5))) := by
  have required := requiredLevel_le_restLevel quality
  rcases Nat.lt_or_ge quality.restLevel c.level with behind | held
  · have hold : ∀ other ∈ List.replicate (n + 1) quality,
        quality.restLevel ≤ other.restLevel ∧ other.restLevel ≤ quality.restLevel := by
      intro other member
      rw [List.eq_of_mem_replicate member]
      exact ⟨le_rfl, le_rfl⟩
    have bounds := level_bounds few hold (Nat.le_of_lt behind)
    rw [List.length_replicate] at bounds
    omega
  · rw [level_replicate_of_held held]
    omega

/-- On a network that stays as it is, whatever came before, the level behind every window follows from the level
and the windows counted at the start. Within twenty windows the controller rests: at the level where it was, or
at the nearest one between the level that the quality requires and the one that it holds the controller at. -/
theorem adaptation_settles (maxVideoKbps : ℤ) (before : List NetworkQuality) (quality : NetworkQuality) :
    let c := adaptation.final (.fresh maxVideoKbps) before
    let level n := (adaptation.final (.fresh maxVideoKbps) (before ++ List.replicate n quality)).level
    (∀ n, level (n + 1) = max quality.requiredLevel
        (min c.level (max quality.restLevel (c.level - (c.recoveryWindows + (n + 1)) / 5)))) ∧
      ∀ n, level (n + 20) = max quality.requiredLevel (min c.level quality.restLevel) := by
  intro c level
  have few : c.recoveryWindows < recoveryWindowLimit := recoveryWindows_lt maxVideoKbps before
  have each (n : ℕ) : level (n + 1) = max quality.requiredLevel
      (min c.level (max quality.restLevel (c.level - (c.recoveryWindows + (n + 1)) / 5))) := by
    have run : level (n + 1) = (adaptation.final c (List.replicate (n + 1) quality)).level :=
      congrArg VideoAdaptationController.level (Transducer.final_append ..)
    rw [run, level_replicate few]
  refine ⟨each, fun n => ?_⟩
  have worst : c.level < 5 := c.levelBound
  have settled := each (n + 19)
  have arrived : c.level - (c.recoveryWindows + (n + 20)) / 5 = 0 := by omega
  rw [settled, arrived, max_eq_left (Nat.zero_le _)]

end WeakNetVideo
