import WeakNetVideo.Model.Sender
import WeakNetVideo.Model.ReceiverEvents
import Mathlib.Tactic.Common

/-! # A sender's run and what a channel delivers of it

A sender alternates between announcing a frame and sending batches. Every batch with media is one
frame on the wire. A channel may drop, delay, reorder and duplicate the packets of these frames, but
it delivers no other media packet.
-/

namespace WeakNetVideo

/-- The calls of the handler, in the direction of a sender, that shape what it sends. -/
inductive SenderCall where
  | setOutgoingFrame (epoch : UInt16) (keyframe : Bool)
  | outgoing (messages : List MessagePtr)

/-- The messages that are not null, in order. -/
def present (messages : List MessagePtr) : List Message := messages.filterMap id

namespace Sender

def call (rtc : Rtc) (s : Sender) : SenderCall → Sender × List MessagePtr
  | .setOutgoingFrame epoch keyframe => (s.setOutgoingFrame epoch keyframe, [])
  | .outgoing messages => s.senderOutgoing rtc messages

end Sender

/-- The machine of a sender's calls. -/
def senderCalls (rtc : Rtc) : Transducer Sender SenderCall (List MessagePtr) := ⟨Sender.call rtc⟩

/-- The media packets that one call puts on the wire, and what they are stamped with. -/
structure SentFrame where
  epoch : UInt16
  frameId : UInt32
  keyframe : Bool
  packets : List Message
deriving DecidableEq

/-- The frame of a call, when its batch has media. -/
def Sender.sentFrame (rtc : Rtc) (s : Sender) : SenderCall → Option SentFrame
  | .setOutgoingFrame _ _ => none
  | .outgoing messages =>
    if (messages.filter (isRtp rtc)).isEmpty then none
    else some {
      epoch := s.epoch
      frameId := s.nextFrameId
      keyframe := s.nextFrameKeyframe
      packets := present ((s.senderOutgoing rtc messages).2.filter (isRtp rtc)) }

/-- The frames of a run, in the order they are sent. -/
def sentFrames (rtc : Rtc) : Sender → List SenderCall → List SentFrame
  | _, [] => []
  | s, call :: calls => (s.sentFrame rtc call).toList ++ sentFrames rtc (s.call rtc call).1 calls

/-- The stamp of a frame's packet. -/
def SentFrame.stamp (frame : SentFrame) (index : ℕ) : FrameMetadata where
  epoch := frame.epoch
  frameId := frame.frameId
  packetIndex := UInt16.ofNat index
  packetCount := UInt16.ofNat frame.packets.length
  keyframe := frame.keyframe

/-- A batch whose media packets can be stamped: not too many of them, each within the bounds of a
length word and without an element that reads as frame metadata. -/
def SenderCall.Stampable (rtc : Rtc) : SenderCall → Prop
  | .setOutgoingFrame _ _ => True
  | .outgoing messages => (messages.filter (isRtp rtc)).length ≤ 65535 ∧
      ∀ message, some message ∈ messages → isRtp rtc (some message) = true →
        message.bytes.length ≤ 65535 ∧ NoFrameInfo message

/-- Every media packet that the calls of a receiver are given is a packet of these frames. -/
def Delivers (rtc : Rtc) (sent : List SentFrame) (calls : List ReceiverCall) : Prop :=
  ∀ batch, .incoming batch ∈ calls → ∀ arrival ∈ mediaArrivals rtc batch.arrivals,
    ∃ frame ∈ sent, arrival.2 ∈ frame.packets

/-- One batch with all packets of some frames. -/
def deliverTogether (atUs : ℤ) (frames : List SentFrame) : ReceiverCall :=
  .incoming {
    arrivals := (frames.flatMap SentFrame.packets).map fun packet => (atUs, some packet)
    drainUs := atUs
    pollUs := atUs }

theorem delivers_nil (rtc : Rtc) (sent : List SentFrame) : Delivers rtc sent [] := by
  intro batch member
  contradiction

/-- A batch of sent frames may come first. -/
theorem delivers_together {rtc : Rtc} {sent frames : List SentFrame} {atUs : ℤ}
    {calls : List ReceiverCall} (inside : ∀ frame ∈ frames, frame ∈ sent)
    (rest : Delivers rtc sent calls) : Delivers rtc sent (deliverTogether atUs frames :: calls) := by
  intro batch member arrival media
  rcases List.mem_cons.mp member with here | there
  · cases here
    simp only [mediaArrivals, List.mem_filterMap, List.mem_map, List.mem_flatMap] at media
    obtain ⟨_, ⟨packet, ⟨frame, ofBatch, ofFrame⟩, rfl⟩, here⟩ := media
    simp only [Option.map_some] at here
    split_ifs at here
    cases here
    exact ⟨frame, inside frame ofBatch, ofFrame⟩
  · exact rest batch there arrival media

/-- A call without a batch may come first. -/
theorem delivers_other {rtc : Rtc} {sent : List SentFrame} {call : ReceiverCall}
    {calls : List ReceiverCall} (other : ∀ batch, call ≠ .incoming batch)
    (rest : Delivers rtc sent calls) : Delivers rtc sent (call :: calls) := by
  intro batch member
  rcases List.mem_cons.mp member with here | there
  · exact absurd here.symm (other batch)
  · exact rest batch there

end WeakNetVideo
