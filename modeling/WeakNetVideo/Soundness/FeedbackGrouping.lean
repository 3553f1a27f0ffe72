import Mathlib.Data.List.Induction
import WeakNetVideo.Proofs.Compound

/-! # The grouping of feedback

RTCP packets may come one by one, in batches of messages or in compound messages. The counters and the force
flag do not depend on it. The callbacks of a batch run when it has been read, the request before the
acknowledgement: where both are in one batch the acknowledgement wins, also over a request behind it.
-/

namespace WeakNetVideo

/-- What a packet means to the recovery of the sender. -/
inductive RecoverySignal where
  | pli
  | keyframeAck
deriving DecidableEq, Repr

/-- A picture loss indication, a keyframe acknowledgement, or neither. -/
def recoverySignal (packet : List Byte) : Option RecoverySignal :=
  if Rtcp.payloadType packet 0 = rtcpPayloadFeedback ∧ Rtcp.reportCount packet 0 = pliFeedbackFormat then
    some .pli
  else if Rtcp.payloadType packet 0 = rtcpApp ∧ keyframeAckSize ≤ packet.length ∧
      BigEndian.readU32 packet 8 = keyframeAckName then
    some .keyframeAck
  else none

def recoverySignals (packets : List (List Byte)) : List RecoverySignal := packets.filterMap recoverySignal

namespace SenderEndpoint

/-- One call for every batch, each a list of compound messages. -/
def deliver (e : SenderEndpoint) (calls : List (List (List (List Byte)))) : SenderEndpoint :=
  calls.foldl (fun e call => e.incoming (call.map fun packets => some (compound packets))) e

/-- What packets come to in their own order: they count, a request raises the force flag, and the last
signal decides on the recovery mode. -/
def after (e : SenderEndpoint) (packets : List (List Byte)) : SenderEndpoint where
  handler := { e.handler with
    retransmittedPackets := e.handler.retransmittedPackets + (packets.map askedFor).sum
    pliPackets := e.handler.pliPackets + (recoverySignals packets).count .pli }
  flags := {
    recoveryMode := ((recoverySignals packets).getLast?.map fun last => decide (last = .pli)).getD
      e.flags.recoveryMode
    forceKeyframe := e.flags.forceKeyframe || decide (.pli ∈ recoverySignals packets) }

end SenderEndpoint

variable {packets : List (List Byte)} {feedback : Feedback} {e : SenderEndpoint}

/-! ## One call -/

/-- What a batch has gathered of its packets. -/
def gathered (packets : List (List Byte)) : Feedback where
  retransmittedPackets := (packets.map askedFor).sum
  pliPackets := (recoverySignals packets).count .pli
  requestKeyframe := decide (.pli ∈ recoverySignals packets)
  keyframeAcknowledged := decide (.keyframeAck ∈ recoverySignals packets)

private theorem recoverySignals_concat (packets : List (List Byte)) (packet : List Byte) :
    recoverySignals (packets ++ [packet]) = recoverySignals packets ++ (recoverySignal packet).toList := by
  rw [recoverySignals, List.filterMap_append]
  cases signal : recoverySignal packet <;> simp [recoverySignals, signal]

private theorem observePacket_gathered {packet : List Byte} (good : WellFormedRtcp packet) :
    (gathered packets).observePacket packet 0 = gathered (packets ++ [packet]) := by
  have size := good.size
  have asked : askedFor packet = (Feedback.observePacket {} packet 0).retransmittedPackets := rfl
  simp only [gathered, recoverySignals_concat, List.map_append, List.sum_append, List.map_singleton,
    List.sum_singleton, asked]
  simp only [Feedback.observePacket, recoverySignal, size, Nat.zero_add, ge_iff_le]
  have apart : rtcpTransportFeedback ≠ rtcpPayloadFeedback ∧ rtcpTransportFeedback ≠ rtcpApp := by decide
  by_cases nack : Rtcp.payloadType packet 0 = rtcpTransportFeedback
  · simp [nack, apart.1, apart.2]
    split_ifs <;> simp
  · split_ifs <;> simp_all

private theorem foldl_observePacket (good : ∀ packet ∈ packets, WellFormedRtcp packet) :
    packets.foldl (fun feedback packet => feedback.observePacket packet 0) {} = gathered packets := by
  induction packets using List.reverseRecOn with
  | nil => rfl
  | append_singleton packets packet ih =>
    rw [List.foldl_append, ih fun other member => good other (List.mem_append_left _ member)]
    exact observePacket_gathered (good packet (by simp))

private theorem foldl_observeMessage {call : List (List (List Byte))}
    (good : ∀ packet ∈ call.flatten, WellFormedRtcp packet) (feedback : Feedback) :
    (call.map fun packets => some (compound packets)).foldl Feedback.observeMessage feedback =
      call.flatten.foldl (fun feedback packet => feedback.observePacket packet 0) feedback := by
  induction call generalizing feedback with
  | nil => rfl
  | cons packets call ih =>
    rw [List.flatten_cons] at good ⊢
    rw [List.map_cons, List.foldl_cons, List.foldl_append,
      observeMessage_compound fun packet member => good packet (List.mem_append_left _ member)]
    exact ih (fun packet member => good packet (List.mem_append_right _ member)) _

/-- The recovery mode behind a batch: an acknowledgement ends it wherever in the batch it stands. -/
def batchMode (mode : Bool) (signals : List RecoverySignal) : Bool :=
  if .keyframeAck ∈ signals then false else if .pli ∈ signals then true else mode

/-- A call counts the packets of its batch, however they are put together. -/
private theorem incoming_call {call : List (List (List Byte))}
    (good : ∀ packet ∈ call.flatten, WellFormedRtcp packet) :
    e.incoming (call.map fun packets => some (compound packets)) =
      { e.after call.flatten with
        flags := { (e.after call.flatten).flags with
          recoveryMode := batchMode e.flags.recoveryMode (recoverySignals call.flatten) } } := by
  obtain ⟨handler, mode, force⟩ := e
  have batch : (call.map fun packets => some (compound packets)).foldl Feedback.observeMessage {} =
      gathered call.flatten := (foldl_observeMessage good {}).trans (foldl_observePacket good)
  simp only [SenderEndpoint.incoming, Sender.senderIncoming, batch, SenderEndpoint.after]
  simp only [RecoveryFlags.afterBatch, gathered, decide_eq_true_eq, batchMode]
  split_ifs with acknowledged request request <;>
    simp [RecoveryFlags.keyframeRequested, RecoveryFlags.keyframeAcknowledged, request]

/-! ## All calls -/

/-- Over calls the counters add up, and the recovery mode goes from batch to batch. -/
private theorem deliver_eq {calls : List (List (List (List Byte)))}
    (good : ∀ packet ∈ calls.flatten.flatten, WellFormedRtcp packet) :
    e.deliver calls =
      { e.after calls.flatten.flatten with
        flags := { (e.after calls.flatten.flatten).flags with
          recoveryMode := calls.foldl (fun mode call => batchMode mode (recoverySignals call.flatten))
            e.flags.recoveryMode } } := by
  induction calls using List.reverseRecOn with
  | nil => simp [SenderEndpoint.deliver, SenderEndpoint.after, recoverySignals]
  | append_singleton calls call ih =>
    rw [List.flatten_append, List.flatten_append, List.flatten_singleton] at good ⊢
    have front := ih fun packet member => good packet (List.mem_append_left _ member)
    have last := @incoming_call (e.deliver calls) call fun packet member =>
      good packet (List.mem_append_right _ member)
    have signals : recoverySignals (calls.flatten.flatten ++ call.flatten) =
      recoverySignals calls.flatten.flatten ++ recoverySignals call.flatten := List.filterMap_append
    rw [SenderEndpoint.deliver, List.foldl_concat, ← SenderEndpoint.deliver, last, front]
    simp [SenderEndpoint.after, signals, Nat.add_assoc, Bool.or_assoc]

/-- The last signal decides, unless a batch with an acknowledgement ends with a request. -/
private theorem foldl_batchMode {groups : List (List RecoverySignal)}
    (settled : .keyframeAck ∈ groups.flatten → groups.flatten.getLast? ≠ some .pli) (mode : Bool) :
    groups.foldl batchMode mode =
      (groups.flatten.getLast?.map fun last => decide (last = .pli)).getD mode := by
  induction groups using List.reverseRecOn with
  | nil => rfl
  | append_singleton groups group ih =>
    rw [List.flatten_append, List.flatten_singleton] at settled ⊢
    rw [List.foldl_concat]
    rcases List.eq_nil_or_concat group with rfl | ⟨front, last, rfl⟩
    · rw [List.append_nil] at settled ⊢
      exact ih settled
    · rw [List.concat_eq_append] at settled ⊢
      rw [← List.append_assoc, List.getLast?_concat] at settled ⊢
      cases last with
      | keyframeAck => simp [batchMode]
      | pli =>
        have none : .keyframeAck ∉ front ++ [RecoverySignal.pli] := fun inside =>
          settled (by simpa using Or.inr (by simpa using inside)) rfl
        simp [batchMode, none]

private theorem flatten_singles {α : Type*} (items : List α) : (items.map fun item => [item]).flatten = items := by
  rw [← List.flatMap_def, List.flatMap_singleton']

private theorem flatten_recoverySignals (calls : List (List (List (List Byte)))) :
    (calls.map fun call => recoverySignals call.flatten).flatten = recoverySignals calls.flatten.flatten := by
  induction calls with
  | nil => rfl
  | cons call calls ih =>
    rw [List.map_cons, List.flatten_cons, ih, List.flatten_cons, List.flatten_append]
    exact List.filterMap_append.symm

/-- The sequence has no acknowledgement, or its last signal is one. -/
def Settled (packets : List (List Byte)) : Prop :=
  .keyframeAck ∈ recoverySignals packets → (recoverySignals packets).getLast? ≠ some .pli

/-- For such packets every grouping comes to the same. -/
theorem deliver_of_settled {calls : List (List (List (List Byte)))} (grouped : calls.flatten.flatten = packets)
    (good : ∀ packet ∈ packets, WellFormedRtcp packet) (settled : Settled packets) :
    e.deliver calls = e.after packets := by
  subst grouped
  rw [deliver_eq good, ← List.foldl_map (f := fun call : List (List (List Byte)) =>
    recoverySignals call.flatten), foldl_batchMode]
  · rw [flatten_recoverySignals]
    rfl
  · rw [flatten_recoverySignals]
    exact settled

/-- A sequence of well-formed packets leaves the sender in one state as one batch, as one compound message
and packet by packet exactly when it has no acknowledgement or its last signal is one; every other grouping
then leaves it there too. -/
theorem grouping_same_iff (e : SenderEndpoint) (packets : List (List Byte))
    (good : ∀ packet ∈ packets, WellFormedRtcp packet) :
    ((e.deliver [packets.map fun packet => [packet]] = e.after packets ∧
        e.deliver [[packets]] = e.after packets ∧
        e.deliver (packets.map fun packet => [[packet]]) = e.after packets) ↔ Settled packets) ∧
      (Settled packets → ∀ calls : List (List (List (List Byte))), calls.flatten.flatten = packets →
        e.deliver calls = e.after packets) := by
  have batch : [packets.map fun packet => [packet]].flatten.flatten = packets := by
    rw [List.flatten_singleton, flatten_singles]
  have single : (packets.map fun packet => [[packet]]).flatten.flatten = packets := by
    have nested : (packets.map fun packet => [[packet]]) =
        (packets.map fun packet => [packet]).map fun group => [group] := by simp
    rw [nested, flatten_singles, flatten_singles]
  refine ⟨⟨fun ⟨same, _⟩ => ?_, fun settled => ?_⟩, fun settled calls grouped =>
    deliver_of_settled grouped good settled⟩
  · intro acknowledged last
    rw [deliver_eq (by rwa [batch]), batch] at same
    have mode := congrArg (fun e => e.flags.recoveryMode) same
    simp only [List.foldl_cons, List.foldl_nil, batchMode, SenderEndpoint.after, last, Option.map_some,
      Option.getD_some] at mode
    rw [flatten_singles, if_pos acknowledged] at mode
    contradiction
  · exact ⟨deliver_of_settled batch good settled, deliver_of_settled (by simp) good settled,
      deliver_of_settled single good settled⟩

instance (packets : List (List Byte)) : Decidable (Settled packets) :=
  inferInstanceAs (Decidable (_ → _))

/-- A picture loss indication as the transport library sends it. -/
private def lossIndication : List Byte := Rtcp.header 1 rtcpPayloadFeedback 2 ++ List.replicate 8 0

private theorem signals_wellFormed :
    ∀ packet ∈ [lossIndication, (keyframeAck 1 7).bytes], WellFormedRtcp packet := by decide

/-- A request in front of the acknowledgement is over with it in every grouping. -/
theorem grouping_same_iff_request_first :
    let packets := [lossIndication, (keyframeAck 1 7).bytes]
    Settled packets ∧ ({} : SenderEndpoint).deliver [[packets]] = ({} : SenderEndpoint).after packets := by
  have settled : Settled [lossIndication, (keyframeAck 1 7).bytes] := by decide
  exact ⟨settled, ((grouping_same_iff {} _ signals_wellFormed).1.mpr settled).2.1⟩

/-- An acknowledgement and a request behind it: packet by packet the sender is left in recovery, as one batch
and as one compound message it is not. -/
theorem ackBeforeRequest_not_same :
    let packets := [(keyframeAck 1 7).bytes, lossIndication]
    (∀ packet ∈ packets, WellFormedRtcp packet) ∧
      (({} : SenderEndpoint).deliver (packets.map fun packet => [[packet]])).flags.recoveryMode = true ∧
      (({} : SenderEndpoint).deliver [packets.map fun packet => [packet]]).flags.recoveryMode = false ∧
      (({} : SenderEndpoint).deliver [[packets]]).flags.recoveryMode = false := by
  decide +kernel

end WeakNetVideo
