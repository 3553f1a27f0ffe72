import Mathlib.Tactic.FieldSimp
import Mathlib.Tactic.IntervalCases
import Mathlib.Tactic.Linarith
import WeakNetVideo.Soundness.Adaptation
import WeakNetVideo.Soundness.FeedbackLoop

/-! # Turns of the statistics loop

A turn measures the network, has the controller choose a profile, and gives the profile to the sender and a
rate to the pacing handler, while the other threads go on. Behind a turn the three agree: the profile is that
of a level which the measured loss allows, and the rate is what brings the profile's bit rate through.
-/

namespace WeakNetVideo

/-- The last snapshot that a run has taken: one that comes later finds the loop inside a turn, where there is
none to take. -/
structure LastSnapshot (rtc : Rtc) (structs : RtcpStructs) (maxVideoKbps : ℤ) (events before : List SessionEvent)
    (atUs : ℤ) : Prop where
  taken : (sessionAfter rtc structs maxVideoKbps before).statsTurn = .top
  last : ∃ after, events = before ++ .takeSnapshot atUs :: after ∧
    ∀ between laterUs rest, after = between ++ .takeSnapshot laterUs :: rest →
      (sessionAfter rtc structs maxVideoKbps (before ++ .takeSnapshot atUs :: between)).statsTurn ≠ .top

/-- No turn has come to its end. -/
structure NoTurnYet (maxVideoKbps : ℤ) (s : SenderSession) : Prop where
  profile : s.video.profile = {}
  pacing : s.pacingBps = initialPacingBps
  adaptation : s.adaptation = .fresh maxVideoKbps

/-- What a turn leaves behind. -/
structure TurnDone (s : SenderSession) (quality : MeasuredQuality) : Prop where
  profile : s.video.profile = s.adaptation.profile
  pacing : s.pacingBps = pacingBpsFor s.adaptation.profile quality.toNetworkQuality

variable {rtc : Rtc} {structs : RtcpStructs} {maxVideoKbps : ℤ} {quality : NetworkQuality} {s : SenderSession}

/-! ## The rate -/

/-- The events of the other threads. -/
def SessionEvent.Beside : SessionEvent → Prop
  | .takeSnapshot _ | .updateProfile | .updateNetworkQuality => False
  | _ => True

/-- Where the statistics loop stands, when its controller was last updated with such qualities. -/
def TurnKept (maxVideoKbps : ℤ) (s : SenderSession) (AdaptedWith : MeasuredQuality → Prop) : Prop :=
  match s.statsTurn with
  | .top => NoTurnYet maxVideoKbps s ∨ ∃ quality, AdaptedWith quality ∧ TurnDone s quality
  | .adapted quality profile => AdaptedWith quality ∧ profile = s.adaptation.profile
  | .profiled quality => AdaptedWith quality ∧ s.video.profile = s.adaptation.profile

private theorem TurnKept.mono {before after : MeasuredQuality → Prop} (kept : TurnKept maxVideoKbps s before)
    (more : ∀ quality, before quality → after quality) : TurnKept maxVideoKbps s after := by
  rw [TurnKept] at kept ⊢
  split at kept
  · exact kept.imp_right fun ⟨quality, adapted, done⟩ => ⟨quality, more quality adapted, done⟩
  · exact ⟨more _ kept.1, kept.2⟩
  · exact ⟨more _ kept.1, kept.2⟩

/-- An event that takes no snapshot leaves the last one. -/
private theorem LastSnapshot.extend {events before : List SessionEvent} {atUs : ℤ} {event : SessionEvent}
    (snapshot : LastSnapshot rtc structs maxVideoKbps events before atUs)
    (idle : ∀ laterUs, event = .takeSnapshot laterUs →
      (sessionAfter rtc structs maxVideoKbps events).statsTurn ≠ .top) :
    LastSnapshot rtc structs maxVideoKbps (events ++ [event]) before atUs := by
  obtain ⟨taken, after, rfl, last⟩ := snapshot
  refine ⟨taken, after ++ [event], by simp, fun between laterUs rest cut => ?_⟩
  rcases List.eq_nil_or_concat rest with rfl | ⟨rest, final, rfl⟩
  · obtain ⟨rfl, here⟩ := List.append_inj' cut rfl
    exact idle laterUs (List.cons.inj here).1
  · rw [List.concat_eq_append, ← List.cons_append, ← List.append_assoc] at cut
    exact last between laterUs rest (List.append_inj' cut rfl).1

end WeakNetVideo
