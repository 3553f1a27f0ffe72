import WeakNetVideo.Model.FrameMetadata
import WeakNetVideo.Model.Rtcp

/-! # The sending transport handler

Outgoing: the media packets of one batch are one frame and are stamped with its id, their index and
their number. Incoming: RTCP feedback is counted, and picture loss indications and keyframe
acknowledgements are collected over the whole batch before their callbacks run.
-/

namespace WeakNetVideo

open BigEndian

/-- The fields of `VideoTransportHandler` that a sender uses. -/
structure Sender where
  epoch : UInt16 := 1
  nextFrameKeyframe : Bool := false
  nextFrameId : UInt32 := 1
  retransmittedPackets : ℕ := 0
  pliPackets : ℕ := 0
deriving DecidableEq, Repr

namespace Sender

def setOutgoingFrame (s : Sender) (epoch : UInt16) (keyframe : Bool) : Sender :=
  { s with epoch := max 1 epoch, nextFrameKeyframe := keyframe }

/-- Stamp the media packets in turn, up to `count` of them; other messages pass. -/
def stampMessages (rtc : Rtc) (stamp : UInt16 → FrameMetadata) (count : ℕ) :
    ℕ → List MessagePtr → List MessagePtr
  | _, [] => []
  | index, pointer :: rest =>
    if isRtp rtc pointer then
      (if index < count then pointer.map (addFrameMetadata rtc (stamp (UInt16.ofNat index)))
        else pointer) :: stampMessages rtc stamp count (index + 1) rest
    else pointer :: stampMessages rtc stamp count index rest

/-- The metadata of the packet of an index in the next frame, when that has so many packets. -/
def stamp (s : Sender) (count : ℕ) (index : UInt16) : FrameMetadata where
  epoch := s.epoch
  frameId := s.nextFrameId
  packetIndex := index
  packetCount := UInt16.ofNat count
  keyframe := s.nextFrameKeyframe

def senderOutgoing (rtc : Rtc) (s : Sender) (messages : List MessagePtr) :
    Sender × List MessagePtr :=
  let mediaPackets := messages.filter (isRtp rtc)
  if mediaPackets.isEmpty then (s, messages)
  else
    let packetCount := min mediaPackets.length 65535
    ({ s with nextFrameId := s.nextFrameId + 1 },
      stampMessages rtc (s.stamp packetCount) packetCount 0 messages)

end Sender

/-! ## Feedback -/

/-- The packets a group asks for: the lost one, then one for every set bit. -/
def NackGroup.sequenceNumbers (group : NackGroup) : List UInt16 :=
  group.pid :: ((List.range 16).filter fun bit => group.blp &&& (1 <<< UInt16.ofNat bit) ≠ 0).map
    fun bit => group.pid + 1 + UInt16.ofNat bit

/-- The groups of the NACK packet at an offset: its length word less the two SSRC words. -/
def nackParts (bytes : List Byte) (offset : ℕ) : List NackGroup :=
  (List.range (Rtcp.length bytes offset - 2)).map fun i =>
    ⟨readU16 bytes (offset + 12 + 4 * i), readU16 bytes (offset + 12 + 4 * i + 2)⟩

/-- What the loop over a batch has gathered: counters, and whether a callback is due. -/
structure Feedback where
  retransmittedPackets : ℕ := 0
  pliPackets : ℕ := 0
  requestKeyframe : Bool := false
  keyframeAcknowledged : Bool := false
deriving DecidableEq, Repr

/-- One RTCP packet of a compound message. -/
def Feedback.observePacket (feedback : Feedback) (bytes : List Byte) (offset : ℕ) : Feedback :=
  let packetSize := Rtcp.lengthInBytes bytes offset
  let type := Rtcp.payloadType bytes offset
  let format := Rtcp.reportCount bytes offset
  if type = rtcpTransportFeedback ∧ format = nackFeedbackFormat ∧ packetSize ≥ 12 then
    { feedback with
      retransmittedPackets := feedback.retransmittedPackets +
        ((nackParts bytes offset).flatMap NackGroup.sequenceNumbers).length }
  else if type = rtcpPayloadFeedback ∧ format = pliFeedbackFormat then
    { feedback with pliPackets := feedback.pliPackets + 1, requestKeyframe := true }
  else if type = rtcpApp ∧ packetSize ≥ keyframeAckSize ∧
      readU32 bytes (offset + 8) = keyframeAckName then
    { feedback with keyframeAcknowledged := true }
  else feedback

/-- The packets of a compound message from an offset on. Each has at least its header, so the size
of the message is fuel enough. -/
def Feedback.observePackets (bytes : List Byte) : ℕ → ℕ → Feedback → Feedback
  | 0, _, feedback => feedback
  | fuel + 1, offset, feedback =>
    if offset + Rtcp.headerSize ≤ bytes.length then
      let packetSize := Rtcp.lengthInBytes bytes offset
      if packetSize < Rtcp.headerSize ∨ offset + packetSize > bytes.length then feedback
      else observePackets bytes fuel (offset + packetSize) (feedback.observePacket bytes offset)
    else feedback

/-- One message of a batch; only control messages with a whole header are looked at. -/
def Feedback.observeMessage (feedback : Feedback) : MessagePtr → Feedback
  | none => feedback
  | some message =>
    if message.type ≠ .control ∨ message.bytes.length < Rtcp.headerSize then feedback
    else observePackets message.bytes message.bytes.length 0 feedback

namespace Sender

/-- The counters, and the callbacks that the batch makes due. -/
def senderIncoming (s : Sender) (messages : List MessagePtr) : Sender × Feedback :=
  let feedback := messages.foldl Feedback.observeMessage {}
  ({ s with
      retransmittedPackets := s.retransmittedPackets + feedback.retransmittedPackets
      pliPackets := s.pliPackets + feedback.pliPackets }, feedback)

end Sender

/-- The atomics of `VideoSender` that the callbacks set. -/
structure RecoveryFlags where
  recoveryMode : Bool := false
  forceKeyframe : Bool := true
deriving DecidableEq, Repr

namespace RecoveryFlags

/-- The `on_keyframe_requested` callback. -/
def keyframeRequested (flags : RecoveryFlags) : RecoveryFlags :=
  { flags with recoveryMode := true, forceKeyframe := true }

/-- The `on_keyframe_acknowledged` callback. -/
def keyframeAcknowledged (flags : RecoveryFlags) : RecoveryFlags :=
  { flags with recoveryMode := false }

/-- The callbacks run after the whole batch, the request first. -/
def afterBatch (flags : RecoveryFlags) (feedback : Feedback) : RecoveryFlags :=
  let requested := if feedback.requestKeyframe then flags.keyframeRequested else flags
  if feedback.keyframeAcknowledged then requested.keyframeAcknowledged else requested

end RecoveryFlags

/-- The sending handler with the flags that its callbacks set. -/
structure SenderEndpoint where
  handler : Sender := {}
  flags : RecoveryFlags := {}
deriving DecidableEq, Repr

/-- A call of `incoming`, with the callbacks that it makes due. -/
def SenderEndpoint.incoming (e : SenderEndpoint) (messages : List MessagePtr) : SenderEndpoint :=
  let (handler, feedback) := e.handler.senderIncoming messages
  { handler := handler, flags := e.flags.afterBatch feedback }

end WeakNetVideo
