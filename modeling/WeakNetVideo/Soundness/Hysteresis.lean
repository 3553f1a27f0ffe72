import Mathlib.Data.List.Induction
import WeakNetVideo.Soundness.Adaptation

/-! # Hysteresis of the adaptation

The controller is never at a better level than its measurement requires, and leaves a level only after five
windows in a row that were good enough for it. A window that counts towards leaving a level does not require
that level, so on a network that stays as it is no recovery is taken back.
-/

namespace WeakNetVideo

open VideoAdaptationController

/-- Every update of a window starts at some level and is good enough to leave it. -/
def QualifyingWindow (c : VideoAdaptationController) (window : List NetworkQuality) (level : ℕ)
    (bound : level < 5) : Prop :=
  adaptation.Everywhere (fun _ c quality => c.level = level ∧ quality.Recovers level bound) [] c window

variable {maxVideoKbps : ℤ} {before : List NetworkQuality} {quality : NetworkQuality}
  {c : VideoAdaptationController} {level : ℕ} {bound : level < 5}

private theorem final_concat (c : VideoAdaptationController) (before : List NetworkQuality)
    (quality : NetworkQuality) :
    adaptation.final c (before ++ [quality]) = (adaptation.final c before).update quality := by
  rw [Transducer.final_append]
  rfl

private theorem qualifyingWindow_concat {window : List NetworkQuality}
    (qualifies : QualifyingWindow c window level bound)
    (here : (adaptation.final c window).level = level) (recovers : quality.Recovers level bound) :
    QualifyingWindow c (window ++ [quality]) level bound := by
  apply adaptation.everywhere_append.mpr
  exact ⟨qualifies, ⟨here, recovers⟩, trivial⟩

/-- The counter tells how many of the last updates started at the level and were good enough to leave it. -/
def CountsWindows (c : VideoAdaptationController) (before : List NetworkQuality) : Prop :=
  ∃ start window, before = start ++ window ∧
    window.length = (adaptation.final c before).recoveryWindows ∧
    QualifyingWindow (adaptation.final c start) window (adaptation.final c before).level
      (adaptation.final c before).levelBound

private theorem countsWindows_of_zero (zero : (adaptation.final c before).recoveryWindows = 0) :
    CountsWindows c before :=
  ⟨before, [], (List.append_nil before).symm, zero.symm, trivial⟩

/-- A window behind some windows that were counted is counted too. -/
private theorem CountsWindows.extend (counts : CountsWindows c before)
    (recovers : quality.Recovers (adaptation.final c before).level (adaptation.final c before).levelBound) :
    ∃ start window, before ++ [quality] = start ++ window ∧
      window.length = (adaptation.final c before).recoveryWindows + 1 ∧
      QualifyingWindow (adaptation.final c start) window (adaptation.final c before).level
        (adaptation.final c before).levelBound := by
  obtain ⟨start, window, rfl, length, qualifies⟩ := counts
  refine ⟨start, window ++ [quality], List.append_assoc .., ?_, ?_⟩
  · rw [List.length_append, length]
    rfl
  · apply qualifyingWindow_concat qualifies _ recovers
    rw [← Transducer.final_append]

private theorem qualifyingWindow_level {window : List NetworkQuality} {other : ℕ} (same : level = other)
    (qualifies : QualifyingWindow c window level bound) (bound' : other < 5) :
    QualifyingWindow c window other bound' := by
  subst same
  exact qualifies

theorem countsWindows (maxVideoKbps : ℤ) (before : List NetworkQuality) :
    CountsWindows (.fresh maxVideoKbps) before := by
  induction before using List.reverseRecOn with
  | nil => exact countsWindows_of_zero rfl
  | append_singleton before quality counts =>
    rcases update_cases (adaptation.final (.fresh maxVideoKbps) before) quality with
      ⟨_, _, zero⟩ | ⟨_, _, _, zero⟩ | ⟨recovers, _, stayed, counted⟩ | ⟨_, _, _, zero⟩
    · exact countsWindows_of_zero (by rw [final_concat, zero])
    · exact countsWindows_of_zero (by rw [final_concat, zero])
    · obtain ⟨start, window, split, length, qualifies⟩ := counts.extend recovers
      refine ⟨start, window, split, ?_, ?_⟩
      · rw [final_concat, counted, length]
      · apply qualifyingWindow_level _ qualifies
        rw [final_concat, stayed]
    · exact countsWindows_of_zero (by rw [final_concat, zero])

theorem recoveryWindows_lt (maxVideoKbps : ℤ) (before : List NetworkQuality) :
    (adaptation.final (.fresh maxVideoKbps) before).recoveryWindows < recoveryWindowLimit := by
  induction before using List.reverseRecOn with
  | nil => exact Nat.succ_pos 4
  | append_singleton before quality ih =>
    rw [final_concat]
    rcases update_cases (adaptation.final (.fresh maxVideoKbps) before) quality with
      ⟨_, _, zero⟩ | ⟨_, _, _, zero⟩ | ⟨_, few, _, counted⟩ | ⟨_, _, _, zero⟩
    · rw [zero]; decide
    · rw [zero]; decide
    · rw [counted]; exact few
    · rw [zero]; decide

/-! ## A network that stays as it is -/

/-- Once a level is no better than the quality requires, the same quality never raises it. -/
theorem update_level_le (required : quality.requiredLevel ≤ c.level) : (c.update quality).level ≤ c.level := by
  rcases update_cases c quality with ⟨above, _⟩ | ⟨_, _, moved, _⟩ | ⟨_, _, stayed, _⟩ | ⟨_, _, stayed, _⟩
  · omega
  · omega
  · omega
  · omega

theorem level_replicate_antitone (c : VideoAdaptationController) (quality : NetworkQuality) {n m : ℕ}
    (some_ : 1 ≤ n) (later : n ≤ m) :
    (adaptation.final c (List.replicate m quality)).level ≤
      (adaptation.final c (List.replicate n quality)).level := by
  have required (k : ℕ) :
      quality.requiredLevel ≤ (adaptation.final c (List.replicate (k + 1) quality)).level := by
    rw [List.replicate_succ', final_concat]
    exact requiredLevel_le_update _ quality
  induction m, later using Nat.le_induction with
  | base => exact Nat.le_refl _
  | succ m later ih =>
    obtain ⟨k, rfl⟩ : ∃ k, m = k + 1 := ⟨m - 1, by omega⟩
    rw [List.replicate_succ', final_concat]
    exact Nat.le_trans (update_level_le (required k)) ih

/-! ## Every update -/

/-- In every run of a controller, an update leaves the level at or above the one that its measurement
requires and at most one below the one it started at; it lowers the level only when it ends five updates in
a row that all started at that level and were good enough to leave it. Under one quality from there on the
level does not rise behind the first update, nor does it come back to one that was left. -/
theorem adaptation_hysteresis (maxVideoKbps : ℤ) (before : List NetworkQuality) (quality : NetworkQuality) :
    let c := adaptation.final (.fresh maxVideoKbps) before
    let next := adaptation.final (.fresh maxVideoKbps) (before ++ [quality])
    quality.requiredLevel ≤ next.level ∧ c.level ≤ next.level + 1 ∧
      (next.level < c.level → ∃ start window, before ++ [quality] = start ++ window ∧ window.length = 5 ∧
        QualifyingWindow (adaptation.final (.fresh maxVideoKbps) start) window c.level c.levelBound) ∧
      ∀ n m, 1 ≤ n → n ≤ m →
        (adaptation.final (.fresh maxVideoKbps) (before ++ List.replicate m quality)).level ≤
          (adaptation.final (.fresh maxVideoKbps) (before ++ List.replicate n quality)).level := by
  intro c next
  have step : next = c.update quality := final_concat _ before quality
  rw [step]
  refine ⟨requiredLevel_le_update c quality, ?_, ?_, ?_⟩
  · rcases update_cases c quality with ⟨above, moved, _⟩ | ⟨_, _, moved, _⟩ | ⟨_, _, stayed, _⟩ |
      ⟨_, _, stayed, _⟩
    · omega
    · omega
    · omega
    · omega
  · intro lower
    have few : c.recoveryWindows < recoveryWindowLimit := recoveryWindows_lt maxVideoKbps before
    rcases update_cases c quality with ⟨above, moved, _⟩ | ⟨recovers, enough, _, _⟩ | ⟨_, _, stayed, _⟩ |
      ⟨_, _, stayed, _⟩
    · omega
    · obtain ⟨start, window, split, length, qualifies⟩ := (countsWindows maxVideoKbps before).extend recovers
      refine ⟨start, window, split, ?_, qualifies⟩
      have five : recoveryWindowLimit = 5 := rfl
      have counted : window.length = c.recoveryWindows + 1 := length
      omega
    · omega
    · omega
  · intro n m some_ later
    rw [Transducer.final_append, Transducer.final_append]
    exact level_replicate_antitone c quality some_ later

end WeakNetVideo
