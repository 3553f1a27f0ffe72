import WeakNetVideo.Model.Recovery
import WeakNetVideo.Model.Channel
import WeakNetVideo.Proofs.ReceiverInvariants

/-! # The recovery handshake

The acknowledgement goes out once, when the synchronization is restored. From then on the sender stays
out of recovery mode as long as an acknowledgement is still on its way whenever a late request puts it
back there. A lost or overtaken acknowledgement is never repeated.
-/

namespace WeakNetVideo

/-! ## What the sender reads -/

namespace Feedback

variable {bytes : List Byte} {offset : ℕ}

/-- A packet adds to what has been gathered, whatever that is. -/
private theorem observePacket_flags (feedback : Feedback) (bytes : List Byte) (offset : ℕ) :
    (feedback.observePacket bytes offset).requestKeyframe =
        (feedback.requestKeyframe || (observePacket {} bytes offset).requestKeyframe) ∧
      (feedback.observePacket bytes offset).keyframeAcknowledged =
        (feedback.keyframeAcknowledged || (observePacket {} bytes offset).keyframeAcknowledged) := by
  simp only [observePacket]
  split_ifs <;> simp

private theorem observePackets_flags (bytes : List Byte) (fuel offset : ℕ) (feedback : Feedback) :
    (observePackets bytes fuel offset feedback).requestKeyframe =
        (feedback.requestKeyframe || (observePackets bytes fuel offset {}).requestKeyframe) ∧
      (observePackets bytes fuel offset feedback).keyframeAcknowledged =
        (feedback.keyframeAcknowledged || (observePackets bytes fuel offset {}).keyframeAcknowledged) := by
  induction fuel generalizing offset feedback with
  | zero => simp [observePackets]
  | succ fuel ih =>
    simp only [observePackets]
    split_ifs
    · simp
    · obtain ⟨request, acknowledged⟩ := observePacket_flags feedback bytes offset
      obtain ⟨later, laterToo⟩ := ih (offset + Rtcp.lengthInBytes bytes offset)
        (feedback.observePacket bytes offset)
      obtain ⟨alone, aloneToo⟩ := ih (offset + Rtcp.lengthInBytes bytes offset)
        (observePacket {} bytes offset)
      rw [later, laterToo, alone, aloneToo, request, acknowledged, Bool.or_assoc, Bool.or_assoc]
      exact ⟨rfl, rfl⟩
    · simp

private theorem observeMessage_flags (feedback : Feedback) (message : Message) :
    (feedback.observeMessage (some message)).requestKeyframe =
        (feedback.requestKeyframe || asksKeyframe message) ∧
      (feedback.observeMessage (some message)).keyframeAcknowledged =
        (feedback.keyframeAcknowledged || acknowledgesKeyframe message) := by
  simp only [asksKeyframe, acknowledgesKeyframe, observeMessage]
  split_ifs
  · simp
  · exact observePackets_flags message.bytes message.bytes.length 0 feedback

/-- A batch asks or acknowledges when one of its messages does. -/
theorem foldl_flags (messages : List Message) (feedback : Feedback) :
    ((messages.map some).foldl observeMessage feedback).requestKeyframe =
        (feedback.requestKeyframe || messages.any asksKeyframe) ∧
      ((messages.map some).foldl observeMessage feedback).keyframeAcknowledged =
        (feedback.keyframeAcknowledged || messages.any acknowledgesKeyframe) := by
  induction messages generalizing feedback with
  | nil => simp
  | cons message rest ih =>
    obtain ⟨request, acknowledged⟩ := observeMessage_flags feedback message
    obtain ⟨later, laterToo⟩ := ih (feedback.observeMessage (some message))
    rw [List.map_cons, List.foldl_cons, later, laterToo, request, acknowledged, List.any_cons,
      List.any_cons, Bool.or_assoc, Bool.or_assoc]
    exact ⟨rfl, rfl⟩

end Feedback

/-- The sender reads the receiver's acknowledgement as one. -/
theorem acknowledges_keyframeAck (epoch : UInt16) (frameId : UInt32) :
    acknowledgesKeyframe (keyframeAck epoch frameId) = true := by
  rfl

/-! ## The agreement -/

/-- When nothing is in flight and no request is about to be sent, a synchronized receiver has a sender
out of recovery mode. -/
def Agreement (s : Protocol) : Prop :=
  s.request = none → (∀ message ∈ s.inFlight, asksKeyframe message = false ∧
    acknowledgesKeyframe message = false) → s.receiver.stats.synchronized = true →
      s.flags.recoveryMode = false

/-- An acknowledgement stays in flight when some messages leave. -/
def AckStays (s : Protocol) (messages : List Message) : Prop :=
  ∃ message ∈ s.inFlight.diff messages, acknowledgesKeyframe message = true

/-- While the receiver is synchronized, an acknowledgement stays in flight behind a batch that asks and
does not acknowledge, and behind a loss in recovery mode. -/
def KeepsAck (_ : List Output) (s : Protocol) (event : ProtocolEvent) : Prop :=
  s.receiver.stats.synchronized = true →
    match event with
    | .deliver messages => messages.Subperm s.inFlight → messages.any asksKeyframe = true →
        messages.any acknowledgesKeyframe = false → AckStays s messages
    | .lose messages => s.flags.recoveryMode = true → AckStays s messages
    | _ => True

/-- A synchronized receiver has a sender out of recovery mode or an acknowledgement on its way. -/
def Handshaken (s : Protocol) : Prop :=
  s.receiver.stats.synchronized = true →
    s.flags.recoveryMode = false ∨ ∃ message ∈ s.inFlight, acknowledgesKeyframe message = true

variable {rtc : Rtc} {pli : Message} {s : Protocol} {past : List Output} {event : ProtocolEvent}
  {messages : List Message}

theorem agreement_of_handshaken (handshaken : Handshaken s) : Agreement s := by
  intro _ quiet kept
  rcases handshaken kept with clear | ⟨message, member, acknowledges⟩
  · exact clear
  · rw [(quiet message member).2] at acknowledges
    contradiction

/-- The synchronization comes back together with an acknowledgement. -/
private theorem acknowledged_of_restored {r : Receiver} {event : ReceiverEvent}
    (lost : r.stats.synchronized = false) (kept : (r.step rtc event).1.stats.synchronized = true) :
    ∃ message ∈ (r.step rtc event).2.sent, acknowledgesKeyframe message = true := by
  rcases Receiver.drain_or_other event with ⟨atUs, rfl⟩ | other
  · rcases Receiver.drain_unsynchronized atUs lost with ⟨_, _, step⟩ | ⟨_, frame, _, _, _, _, step⟩
    · rw [Receiver.step, step, lost] at kept
      contradiction
    · refine ⟨keyframeAck frame.epoch frame.frameId, ?_, acknowledges_keyframeAck _ _⟩
      rw [Receiver.step, step]
      exact List.mem_singleton.mpr rfl
  · have before := (Receiver.step_synchronized_of_ne_drain other kept).1
    rw [lost] at before
    contradiction

/-- The callbacks run the request first, so an acknowledgement in the batch has the last word. -/
private theorem recoveryMode_afterBatch (flags : RecoveryFlags) (feedback : Feedback) :
    (flags.afterBatch feedback).recoveryMode =
      (!feedback.keyframeAcknowledged && (feedback.requestKeyframe || flags.recoveryMode)) := by
  cases acknowledged : feedback.keyframeAcknowledged <;> cases request : feedback.requestKeyframe <;>
    simp [RecoveryFlags.afterBatch, RecoveryFlags.keyframeRequested,
      RecoveryFlags.keyframeAcknowledged, acknowledged, request]

/-- What a delivered batch does to the recovery mode. -/
private theorem recoveryMode_deliver (inside : messages.Subperm s.inFlight) :
    (s.deliver messages).flags.recoveryMode = (!messages.any acknowledgesKeyframe &&
      (messages.any asksKeyframe || s.flags.recoveryMode)) := by
  obtain ⟨request, acknowledged⟩ := Feedback.foldl_flags messages {}
  simp only [Protocol.deliver, if_pos inside, Sender.senderIncoming]
  rw [recoveryMode_afterBatch, request, acknowledged]
  rfl

private theorem handshaken_deliver (handshaken : Handshaken s)
    (keeps : KeepsAck past s (.deliver messages)) : Handshaken (s.deliver messages) := by
  by_cases inside : messages.Subperm s.inFlight
  · intro kept
    have same : (s.deliver messages).receiver = s.receiver := by
      simp only [Protocol.deliver, if_pos inside]
    have left : (s.deliver messages).inFlight = s.inFlight.diff messages := by
      simp only [Protocol.deliver, if_pos inside]
    rw [same] at kept
    rw [recoveryMode_deliver inside, left]
    cases acknowledged : messages.any acknowledgesKeyframe with
    | true => exact .inl rfl
    | false =>
      cases asks : messages.any asksKeyframe with
      | true => exact .inr (keeps kept inside asks acknowledged)
      | false =>
        rcases handshaken kept with clear | ⟨message, member, acknowledges⟩
        · rw [clear]
          exact .inl rfl
        · refine .inr ⟨message, List.mem_diff_of_mem member fun taken => ?_, acknowledges⟩
          have all := List.any_eq_false.mp acknowledged message taken
          exact all acknowledges
  · rw [Protocol.deliver, if_neg inside]
    exact handshaken

theorem handshaken_step (handshaken : Handshaken s) (keeps : KeepsAck past s event) :
    Handshaken (s.step rtc pli event).1 := by
  cases event with
  | receiver event =>
    intro kept
    cases before : s.receiver.stats.synchronized with
    | true =>
      refine (handshaken before).imp_right fun ⟨message, member, acknowledges⟩ => ?_
      exact ⟨message, List.mem_append_left _ member, acknowledges⟩
    | false =>
      obtain ⟨message, member, acknowledges⟩ := acknowledged_of_restored before kept
      exact .inr ⟨message, List.mem_append_right _ member, acknowledges⟩
  | test atUs trackOpen =>
    simp only [Protocol.step, Protocol.test]
    split_ifs <;> exact handshaken
  | send outcome =>
    simp only [Protocol.step, Protocol.send]
    cases s.request with
    | none => exact handshaken
    | some atUs =>
      intro kept
      have before : s.receiver.stats.synchronized = true := by
        cases outcome <;> exact kept
      refine (handshaken before).imp_right fun ⟨message, member, acknowledges⟩ =>
        ⟨message, ?_, acknowledges⟩
      cases outcome with
      | sent => exact List.mem_append_left _ member
      | refused => exact member
      | threw => exact member
  | deliver messages => exact handshaken_deliver handshaken keeps
  | lose messages =>
    intro kept
    cases mode : s.flags.recoveryMode with
    | false => exact .inl mode
    | true => exact .inr (keeps kept mode)

/-- In every run in which an acknowledgement stays in flight where it is needed, both parties agree in
every state. -/
theorem agreement_run (rtc : Rtc) (pli : Message) (recoveryTimeoutMs : ℤ) (events : List ProtocolEvent)
    (keeps : (protocolMachine rtc pli).Everywhere KeepsAck [] (.new recoveryTimeoutMs) events) :
    ∀ first rest, events = first ++ rest →
      Agreement ((protocolMachine rtc pli).final (.new recoveryTimeoutMs) first) := by
  rintro first rest rfl
  have start : Handshaken (.new recoveryTimeoutMs) := fun _ => .inl rfl
  have within := ((protocolMachine rtc pli).everywhere_append.mp keeps).1
  exact agreement_of_handshaken ((protocolMachine rtc pli).invariant (I := fun _ s => Handshaken s)
    (fun _ _ _ holds admitted => handshaken_step holds admitted) start within)

/-! ## The condition is needed -/

private theorem diff_self (messages : List Message) : messages.diff messages = [] := by
  induction messages with
  | nil => rfl
  | cons message rest ih => rw [List.diff_cons, List.erase_cons_head, ih]

/-- Behind the last acknowledgement a synchronized receiver's sender can be left in recovery mode. -/
private theorem disagreement_of_stuck (kept : s.receiver.stats.synchronized = true)
    (stuck : s.flags.recoveryMode = true) :
    ¬Agreement ((protocolMachine rtc pli).final s [.lose s.inFlight, .send .threw]) := by
  intro agreement
  have final : (protocolMachine rtc pli).final s [.lose s.inFlight, .send .threw] =
      (s.lose s.inFlight).send pli .threw := rfl
  rw [final] at agreement
  have empty : (s.lose s.inFlight).inFlight = [] := diff_self s.inFlight
  cases request : s.request with
  | none =>
    have idle : (s.lose s.inFlight).send pli .threw = s.lose s.inFlight := by
      rw [Protocol.send, show (s.lose s.inFlight).request = none from request]
    rw [idle] at agreement
    have clear := agreement request (by rw [empty]; exact fun _ member => absurd member List.not_mem_nil)
      kept
    rw [show (s.lose s.inFlight).flags.recoveryMode = true from stuck] at clear
    contradiction
  | some atUs =>
    have done : (s.lose s.inFlight).send pli .threw =
        { s.lose s.inFlight with request := none, lastPliUs := atUs } := by
      rw [Protocol.send, show (s.lose s.inFlight).request = some atUs from request]
      rfl
    rw [done] at agreement
    have clear := agreement rfl
      (by rw [empty]; exact fun _ member => absurd member List.not_mem_nil) kept
    rw [show (s.lose s.inFlight).flags.recoveryMode = true from stuck] at clear
    contradiction

/-- Where a step lets the last acknowledgement go, a state without agreement can be reached. -/
theorem disagreement_of_not_keepsAck (rtc : Rtc) (pli : Message) (lost : ¬KeepsAck past s event) :
    ∃ more, ¬Agreement ((protocolMachine rtc pli).final s (event :: more)) := by
  refine ⟨[.lose (s.step rtc pli event).1.inFlight, .send .threw], ?_⟩
  rw [Transducer.final_cons]
  cases event with
  | deliver messages =>
    simp only [KeepsAck, Classical.not_imp] at lost
    obtain ⟨kept, inside, asks, acknowledged, _⟩ := lost
    apply disagreement_of_stuck
    · change (s.deliver messages).receiver.stats.synchronized = true
      simp only [Protocol.deliver, if_pos inside]
      exact kept
    · change (s.deliver messages).flags.recoveryMode = true
      rw [recoveryMode_deliver inside, acknowledged, asks]
      rfl
  | lose messages =>
    simp only [KeepsAck, Classical.not_imp] at lost
    exact disagreement_of_stuck lost.1 lost.2.1
  | receiver event => exact absurd (fun _ => trivial) lost
  | test atUs trackOpen => exact absurd (fun _ => trivial) lost
  | send outcome => exact absurd (fun _ => trivial) lost

/-! ## A lost acknowledgement -/

instance : ∀ (past : List Output) (s : Protocol) (event : ProtocolEvent),
    Decidable (KeepsAck past s event)
  | _, s, .deliver messages => inferInstanceAs (Decidable (s.receiver.stats.synchronized = true →
      messages.Subperm s.inFlight → messages.any asksKeyframe = true →
      messages.any acknowledgesKeyframe = false →
      ∃ message ∈ s.inFlight.diff messages, acknowledgesKeyframe message = true))
  | _, s, .lose messages => inferInstanceAs (Decidable (s.receiver.stats.synchronized = true →
      s.flags.recoveryMode = true →
      ∃ message ∈ s.inFlight.diff messages, acknowledgesKeyframe message = true))
  | _, _, .receiver _ => .isTrue fun _ => trivial
  | _, _, .test _ _ => .isTrue fun _ => trivial
  | _, _, .send _ => .isTrue fun _ => trivial

/-- A picture loss indication, as it is on the wire. -/
def pictureLoss : Message where
  type := .control
  bytes := Rtcp.header 1 rtcpPayloadFeedback 2 ++
    (BigEndian.bytesU32 1 ++ BigEndian.bytesU32 0x12345678)

/-- The receiver asks for a keyframe, the request arrives, and so does the keyframe. -/
def requestedKeyframe : List ProtocolEvent :=
  let sent := sentFrames Rtc.rfc5761 {} [.setOutgoingFrame 1 true, .outgoing [some (Rtp.packet 1 true [1])]]
  [.test 300000 true, .send .sent, .deliver [pictureLoss]] ++
    (sent.flatMap SentFrame.packets).map (fun packet => .receiver (.packet 310000 packet)) ++
    [.receiver (.drain 310000)]

/-- When the acknowledgement is lost, the sender stays in recovery mode beside a synchronized receiver. -/
theorem lostAck_no_agreement :
    let final := (protocolMachine Rtc.rfc5761 pictureLoss).final (.new 1000)
      (requestedKeyframe ++ [.lose [keyframeAck 1 1]])
    final.request = none ∧ final.inFlight = [] ∧ final.receiver.stats.synchronized = true ∧
      final.flags.recoveryMode = true ∧ ¬Agreement final := by
  intro final
  have idle : final.request = none := by decide +kernel
  have empty : final.inFlight = [] := by decide +kernel
  have kept : final.receiver.stats.synchronized = true := by decide +kernel
  have stuck : final.flags.recoveryMode = true := by decide +kernel
  refine ⟨idle, empty, kept, stuck, fun agreement => ?_⟩
  have clear := agreement idle (by rw [empty]; exact fun _ member => absurd member List.not_mem_nil) kept
  rw [stuck] at clear
  contradiction

/-- When the acknowledgement is delivered, both parties agree all along. -/
theorem agreement_run_delivered :
    let events := requestedKeyframe ++ [.deliver [keyframeAck 1 1]]
    ∀ first rest, events = first ++ rest →
      Agreement ((protocolMachine Rtc.rfc5761 pictureLoss).final (.new 1000) first) :=
  agreement_run Rtc.rfc5761 pictureLoss 1000 _ (by decide +kernel)

end WeakNetVideo
