import WeakNetVideo.Model.Channel
import WeakNetVideo.Model.VideoSender

/-! # From the encoder to the wire

A frame that the sending loop passes to `send_frame` goes through the transport handler, unless an exception
is thrown before it, and is on the wire when it has media packets. The handler's part in a run of the loop is
a run of its calls.
-/

namespace WeakNetVideo

/-- A frame that was passed to `send_frame`, in the order of encoding, with what it put on the wire. -/
structure Transmission where
  frame : EncodedVideoFrame
  onWire : Option SentFrame
deriving DecidableEq

namespace VideoSender

/-- The calls that a step makes on the transport handler. -/
def handlerCalls (s : VideoSender) : VideoSenderEvent → List SenderCall
  | .send outcome messages =>
    match s.turn with
    | .encoded frame _ =>
      .setOutgoingFrame frame.epoch frame.keyframe ::
        if outcome = .threwBefore then [] else [.outgoing messages]
    | _ => []
  | _ => []

/-- What a step puts on the wire. -/
def transmission (rtc : Rtc) (s : VideoSender) : VideoSenderEvent → Option Transmission
  | .send outcome messages =>
    match s.turn with
    | .encoded frame _ => some {
        frame := frame
        onWire :=
          if outcome = .threwBefore then none
          else (s.transport.setOutgoingFrame frame.epoch frame.keyframe).sentFrame rtc (.outgoing messages) }
    | _ => none
  | _ => none

/-- The calls of a run on the transport handler. -/
def handlerRun (rtc : Rtc) : VideoSender → List VideoSenderEvent → List SenderCall
  | _, [] => []
  | s, event :: events => s.handlerCalls event ++ handlerRun rtc (s.step rtc event).1 events

/-- The frames that a run passes to `send_frame`. -/
def transmissions (rtc : Rtc) : VideoSender → List VideoSenderEvent → List Transmission
  | _, [] => []
  | s, event :: events => (s.transmission rtc event).toList ++ transmissions rtc (s.step rtc event).1 events

end VideoSender

/-- The frames of some transmissions that are on the wire. -/
def wireFrames (sent : List Transmission) : List SentFrame := sent.filterMap Transmission.onWire

/-- The batch of a send can be stamped. -/
def VideoSenderEvent.Stampable (rtc : Rtc) : VideoSenderEvent → Prop
  | .send _ messages => SenderCall.Stampable rtc (.outgoing messages)
  | _ => True

variable {rtc : Rtc}

/-- What holds of every announcement and of every batch that is sent holds of the calls of a run. -/
theorem forall_handlerRun {P : SenderCall → Prop} {s : VideoSender} {events : List VideoSenderEvent}
    (announced : ∀ epoch keyframe, P (.setOutgoingFrame epoch keyframe))
    (batches : ∀ outcome messages, .send outcome messages ∈ events → P (.outgoing messages)) :
    ∀ call ∈ s.handlerRun rtc events, P call := by
  induction events generalizing s with
  | nil => simp [VideoSender.handlerRun]
  | cons event events ih =>
    intro call member
    rcases List.mem_append.mp member with here | there
    · cases event with
      | send outcome messages =>
        have own := batches outcome messages List.mem_cons_self
        rw [VideoSender.handlerCalls] at here
        split at here
        · rcases List.mem_cons.mp here with rfl | here
          · exact announced _ _
          · split_ifs at here
            · contradiction
            · obtain rfl := List.mem_singleton.mp here
              exact own
        · contradiction
      | _ => contradiction
    · exact ih (fun outcome messages inside => batches outcome messages (List.mem_cons_of_mem _ inside)) call there

theorem stampable_handlerRun {s : VideoSender} {events : List VideoSenderEvent}
    (stampable : ∀ event ∈ events, event.Stampable rtc) :
    ∀ call ∈ s.handlerRun rtc events, call.Stampable rtc :=
  forall_handlerRun (fun _ _ => trivial) fun outcome messages member => stampable (.send outcome messages) member

/-- One step leaves the handler as its calls do, and what it puts on the wire is what they send. -/
private theorem handlerCalls_spec (rtc : Rtc) (s : VideoSender) (event : VideoSenderEvent) :
    (s.step rtc event).1.transport = (senderCalls rtc).final s.transport (s.handlerCalls event) ∧
      sentFrames rtc s.transport (s.handlerCalls event) = wireFrames (s.transmission rtc event).toList := by
  cases event with
  | send outcome messages =>
    cases turn : s.turn with
    | encoded frame atUs =>
      simp only [VideoSender.step, VideoSender.send, VideoSender.handlerCalls, VideoSender.transmission, turn]
      by_cases before : outcome = .threwBefore
      · subst before
        exact ⟨rfl, rfl⟩
      · simp only [before, if_false]
        refine ⟨by split_ifs <;> rfl, ?_⟩
        simp only [sentFrames, Sender.sentFrame, Sender.call, wireFrames, Option.toList_some, Option.toList_none,
          List.nil_append, List.append_nil, List.filterMap_cons, List.filterMap_nil]
        split_ifs <;> rfl
    | _ => simp [VideoSender.step, VideoSender.send, VideoSender.handlerCalls, VideoSender.transmission, turn,
        sentFrames, wireFrames]
  | updateProfile profile =>
    refine ⟨?_, rfl⟩
    change (s.updateProfile profile).transport = s.transport
    rw [VideoSender.updateProfile]
    split <;> rfl
  | beginTurn atUs =>
    refine ⟨?_, rfl⟩
    change (s.beginTurn atUs).transport = s.transport
    rw [VideoSender.beginTurn]
    split
    · split_ifs <;> rfl
    · rfl
  | exchange =>
    refine ⟨?_, rfl⟩
    change s.exchange.1.transport = s.transport
    rw [VideoSender.exchange]
    split
    · split_ifs <;> rfl
    · rfl
  | encode reply =>
    refine ⟨?_, rfl⟩
    change (s.encode reply).transport = s.transport
    rw [VideoSender.encode]
    split
    · split <;> rfl
    · rfl
  | _ => exact ⟨rfl, rfl⟩

private theorem sentFrames_append (rtc : Rtc) (s : Sender) (first second : List SenderCall) :
    sentFrames rtc s (first ++ second) =
      sentFrames rtc s first ++ sentFrames rtc ((senderCalls rtc).final s first) second := by
  induction first generalizing s with
  | nil => rfl
  | cons call first ih =>
    rw [List.cons_append, sentFrames, ih, sentFrames, List.append_assoc]
    rfl

/-- What a run puts on the wire is what the run of its calls on the handler sends. -/
theorem sentFrames_handlerRun (rtc : Rtc) (s : VideoSender) (events : List VideoSenderEvent) :
    sentFrames rtc s.transport (s.handlerRun rtc events) = wireFrames (s.transmissions rtc events) := by
  induction events generalizing s with
  | nil => rfl
  | cons event events ih =>
    obtain ⟨transport, sent⟩ := handlerCalls_spec rtc s event
    rw [VideoSender.handlerRun, sentFrames_append, sent, ← transport, ih, VideoSender.transmissions, wireFrames,
      wireFrames, wireFrames, List.filterMap_append]

end WeakNetVideo
