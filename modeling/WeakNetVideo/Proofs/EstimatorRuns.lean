import Mathlib.Data.List.Induction
import WeakNetVideo.Model.NetworkQualityEstimator

/-! # Runs of the estimator

The calls of a run read one clock. A window of the estimator shows at any time what the whole run shows.
-/

namespace WeakNetVideo

variable {calls : List EstimatorCall} {atUs : ℤ}

/-- The calls of a run come in order, and none after a time. -/
def CallsInOrder (calls : List EstimatorCall) (atUs : ℤ) : Prop :=
  (calls.map EstimatorCall.atUs ++ [atUs]).Pairwise (· ≤ ·)

instance (calls : List EstimatorCall) (atUs : ℤ) : Decidable (CallsInOrder calls atUs) :=
  inferInstanceAs (Decidable (List.Pairwise _ _))

theorem callsInOrder_append {call : EstimatorCall} :
    CallsInOrder (calls ++ [call]) atUs ↔
      CallsInOrder calls call.atUs ∧ CallsInOrder calls atUs ∧ call.atUs ≤ atUs := by
  simp only [CallsInOrder, List.map_append, List.pairwise_append, List.mem_append, List.map_cons, List.map_nil,
    List.mem_singleton, List.pairwise_singleton, forall_eq, true_and]
  constructor
  · rintro ⟨⟨earlier, before⟩, behind⟩
    exact ⟨⟨earlier, before⟩, ⟨earlier, fun time member => behind time (.inl member)⟩, behind _ (.inr rfl)⟩
  · rintro ⟨⟨earlier, before⟩, ⟨-, behind⟩, last⟩
    exact ⟨⟨earlier, before⟩, fun time member => member.elim (behind time) fun same => same ▸ last⟩

theorem estimatorAfter_append (calls : List EstimatorCall) (call : EstimatorCall) :
    estimatorAfter (calls ++ [call]) = call.apply (estimatorAfter calls) := by
  rw [estimatorAfter, List.foldl_append]
  rfl

/-- What holds at the start, is kept by every call at its time, and stays as time passes, holds of every
run. -/
theorem invariant_of_ordered {Inv : ℤ → NetworkQualityEstimator → List EstimatorCall → Prop}
    (start : ∀ now, Inv now {} [])
    (step : ∀ now e calls call, Inv now e calls → now ≤ call.atUs → Inv call.atUs (call.apply e) (calls ++ [call]))
    (later : ∀ now late e calls, Inv now e calls → now ≤ late → Inv late e calls)
    (ordered : CallsInOrder calls atUs) : Inv atUs (estimatorAfter calls) calls := by
  induction calls using List.reverseRecOn generalizing atUs with
  | nil => exact start atUs
  | append_singleton calls call ih =>
    obtain ⟨before, -, last⟩ := callsInOrder_append.mp ordered
    rw [estimatorAfter_append]
    exact later _ _ _ _ (step _ _ _ call (ih before) (le_refl _)) last

/-- The packet that a call receives. -/
def EstimatorCall.received : EstimatorCall → Option PacketSample
  | .rtpReceived atUs sequence rtpTimestamp bytes => some ⟨atUs, sequence, rtpTimestamp, bytes⟩
  | _ => none

def receivedSamples (calls : List EstimatorCall) : List PacketSample := calls.filterMap EstimatorCall.received

theorem receivedSamples_append (calls : List EstimatorCall) (call : EstimatorCall) :
    receivedSamples (calls ++ [call]) = receivedSamples calls ++ call.received.toList := by
  rw [receivedSamples, List.filterMap_append]
  cases call <;> rfl

/-- The window of received packets holds what the run received. -/
private theorem holds_receivedPackets (ordered : CallsInOrder calls atUs) :
    Window.Holds PacketSample.atUs (atUs - statsWindowUs) (receivedSamples calls)
      (estimatorAfter calls).receivedPackets := by
  apply @invariant_of_ordered _ _ fun now e calls =>
    Window.Holds PacketSample.atUs (now - statsWindowUs) (receivedSamples calls) e.receivedPackets
  · exact fun now => Window.Holds.refl _ _
  · intro now e calls call holds passed
    have cut := sub_le_sub_right passed statsWindowUs
    rw [receivedSamples_append]
    cases call with
    | rtpReceived => exact (holds.append _).trim cut
    | snapshot => exact (List.append_nil (receivedSamples calls)).symm ▸ holds.trim cut
    | rtpSent | rtcp | receiverReport | twccFeedback | remoteTransportLoss | transportLossReport =>
      exact (List.append_nil (receivedSamples calls)).symm ▸ holds.mono cut
  · exact fun now late e calls holds passed => holds.mono (sub_le_sub_right passed _)
  · exact ordered

/-- Received packets are in the order of the calls. -/
theorem receivedSamples_sorted (ordered : CallsInOrder calls atUs) :
    ((receivedSamples calls).map PacketSample.atUs).Pairwise (· ≤ ·) := by
  apply List.Pairwise.sublist ?_ (List.pairwise_append.mp ordered).1
  clear ordered
  induction calls with
  | nil => exact .slnil
  | cons call calls ih => cases call <;> first | exact ih.cons_cons _ | exact ih.cons _

/-- The packets that a snapshot measures are those of the last two seconds. -/
theorem receivedPackets_trimmed (ordered : CallsInOrder calls atUs) :
    ((estimatorAfter calls).trimmed atUs).receivedPackets =
      (receivedSamples calls).filter fun sample => decide (atUs - statsWindowUs ≤ sample.atUs) :=
  (holds_receivedPackets ordered).trim_eq_filter (le_refl _) (receivedSamples_sorted ordered)

end WeakNetVideo
