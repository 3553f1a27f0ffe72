import WeakNetVideo.Library.Bounded
import WeakNetVideo.Model.Rtx
import WeakNetVideo.Model.Sender
import WeakNetVideo.Model.TwccFeedback
import WeakNetVideo.Model.VideoReceiver

/-! # The packet walkers with their accesses checked

The functions that walk the bytes of a packet, step by step as the source has them, with every access to the
message, or to the extension body that is copied from it, every subtraction of sizes and every turn of a loop
checked. Nothing else is left of what may go wrong in them, so the tests that they make are here in their order.
-/

namespace WeakNetVideo.Checked

open BigEndian Bounded

/-! ## Headers -/

def version (bytes : List Byte) : Except Fault Byte := return (← byteAt bytes 0) >>> 6
def padding (bytes : List Byte) : Except Fault Bool := return (← byteAt bytes 0) &&& 0x20 ≠ 0
def extension (bytes : List Byte) : Except Fault Bool := return (← byteAt bytes 0) &&& 0x10 ≠ 0
def csrcCount (bytes : List Byte) : Except Fault ℕ := return ((← byteAt bytes 0) &&& 0x0f).toNat
def payloadType (bytes : List Byte) : Except Fault Byte := return (← byteAt bytes 1) &&& 0x7f
def ssrc (bytes : List Byte) : Except Fault UInt32 := readU32 bytes 8
def fixedHeaderSize (bytes : List Byte) : Except Fault ℕ := return 12 + (← csrcCount bytes) * 4
def profileSpecificId (bytes : List Byte) (offset : ℕ) : Except Fault UInt16 := readU16 bytes offset
def headerLength (bytes : List Byte) (offset : ℕ) : Except Fault ℕ := return (← readU16 bytes (offset + 2)).toNat

/-- The header of an RTCP packet at an offset. -/
def reportCount (bytes : List Byte) (offset : ℕ) : Except Fault ℕ := return ((← byteAt bytes offset) &&& 0x1f).toNat
def rtcpType (bytes : List Byte) (offset : ℕ) : Except Fault Byte := byteAt bytes (offset + 1)
def rtcpLength (bytes : List Byte) (offset : ℕ) : Except Fault ℕ := return (← readU16 bytes (offset + 2)).toNat
def lengthInBytes (bytes : List Byte) (offset : ℕ) : Except Fault ℕ := return (1 + (← rtcpLength bytes offset)) * 4

def setPayloadType (bytes : List Byte) (type : Byte) : Except Fault (List Byte) := do
  overwrite bytes 1 [((← byteAt bytes 1) &&& 0x80) ||| (type &&& 0x7f)]

def setSeqNumber (bytes : List Byte) (sequence : UInt16) : Except Fault (List Byte) :=
  overwrite bytes 2 (bytesU16 sequence)

def setSsrc (bytes : List Byte) (ssrc : UInt32) : Except Fault (List Byte) := overwrite bytes 8 (bytesU32 ssrc)

/-! ## Header extensions -/

/-- A turn of the walk through an extension body that begins at `body` in some bytes. -/
def elementTurn {σ : Type} (bytes : List Byte) (body size : ℕ) (visit : Element → σ → Except Fault (Turn σ))
    (offset : ℕ) (state : σ) : Except Fault (Turn σ) := do
  let descriptor ← byteAt bytes (body + offset)
  if descriptor = 0 then return .next (offset + 1) state
  else
    let element : Element := ⟨offset, descriptor >>> 4, (descriptor &&& 0x0f).toNat + 1⟩
    if element.id = 15 ∨ element.next > size then return .stop state
    else visit element state

/-- The writers note the end of every element. -/
def noteUsed (element : Element) (_ : ℕ) : Except Fault (Turn ℕ) := return .next element.next element.next

/-- The readers leave with the value of the first element that they look for. -/
def findElement {α : Type} (wanted : Element → Bool) (read : Element → Except Fault (Option α))
    (element : Element) (state : Option α) : Except Fault (Turn (Option α)) := do
  if wanted element then return .stop (← read element)
  else return .next element.next state

/-- Where the extension body begins, and its size, when its headers are there and it fits the message. -/
def readableExtension (bytes : List Byte) : Except Fault (Option (ℕ × ℕ)) := do
  if !(← extension bytes) then return none
  else
    let fixed ← fixedHeaderSize bytes
    if bytes.length < fixed + 4 then return none
    else if (← profileSpecificId bytes fixed) ≠ oneByteExtensionProfile then return none
    else
      let bodySize := (← headerLength bytes fixed) * 4
      if bytes.length < fixed + 4 + bodySize then return none
      else return some (fixed + 4, bodySize)

/-- What a writer keeps of the extension body, and the offset of the old payload. The body is copied, and cut
behind its last element. -/
def oldExtension (bytes : List Byte) : Except Fault (Option (List Byte × ℕ)) := do
  let fixed ← fixedHeaderSize bytes
  if bytes.length < fixed then return none
  else if ← extension bytes then
    match ← readableExtension bytes with
    | none => return none
    | some (body, size) =>
      let extensionBody ← slice bytes body (body + size)
      let used ← loop extensionBody.length 1 (elementTurn extensionBody 0 extensionBody.length noteUsed) 0 0
      return some (← slice extensionBody 0 used, body + size)
  else return some ([], fixed)

/-- The loop that pushes zero bytes up to the next multiple of four. -/
def pushPadding (body : List Byte) : List Byte :=
  if body.length % 4 ≠ 0 then pushPadding (body ++ [0]) else body
termination_by (4 - body.length % 4) % 4
decreasing_by
  rw [List.length_append, List.length_singleton]
  omega

/-- The message that a writer assembles around the body. -/
def rewritten (bytes body : List Byte) (oldPayloadOffset : ℕ) : Except Fault (List Byte) := do
  let header ← slice bytes 0 (← fixedHeaderSize bytes)
  let marked ← overwrite header 0 [(← byteAt header 0) ||| 0x10]
  let payload ← slice bytes oldPayloadOffset bytes.length
  return marked ++ (bytesU16 oneByteExtensionProfile ++ (bytesU16 (UInt16.ofNat (body.length / 4)) ++
    (body ++ payload)))

/-- `add_frame_metadata`. -/
def addFrameMetadata (rtc : Rtc) (metadata : FrameMetadata) (message : Message) : Except Fault Message := do
  if isRtp rtc (some message) then
    match ← oldExtension message.bytes with
    | none => return message
    | some (kept, oldPayloadOffset) =>
      let body := pushPadding (kept ++ (frameInfoDescriptor :: metadata.value))
      return { message with bytes := ← rewritten message.bytes body oldPayloadOffset }
  else return message

/-- `write_twcc_extension`. -/
def writeTwccExtension (rtc : Rtc) (next : UInt16) (message : Message) : Except Fault (Message × UInt16) := do
  if message.bytes.length < 12 || rtc.isRtcp message.bytes then return (message, next)
  else if (← version message.bytes) ≠ 2 || (← padding message.bytes) then return (message, next)
  else
    match ← oldExtension message.bytes with
    | none => return (message, next)
    | some (kept, oldPayloadOffset) =>
      let body := pushPadding (kept ++ (twccDescriptor :: bytesU16 next))
      return ({ message with bytes := ← rewritten message.bytes body oldPayloadOffset }, next + 1)

/-- The fields of the frame metadata at an offset of the message. -/
def metadataAt (bytes : List Byte) (value : ℕ) : Except Fault (Option FrameMetadata) := do
  let first ← byteAt bytes value
  if first >>> 4 ≠ 1 then return none
  else return some {
    keyframe := first &&& 0x01 ≠ 0
    epoch := ← readU16 bytes (value + 1)
    frameId := ← readU32 bytes (value + 3)
    packetIndex := ← readU16 bytes (value + 7)
    packetCount := ← readU16 bytes (value + 9) }

/-- `read_frame_metadata`. -/
def readFrameMetadata (rtc : Rtc) (message : Message) : Except Fault (Option FrameMetadata) := do
  if isRtp rtc (some message) then
    match ← readableExtension message.bytes with
    | none => return none
    | some (body, bodySize) =>
      let read (element : Element) := metadataAt message.bytes (body + element.offset + 1)
      loop bodySize 1 (elementTurn message.bytes body bodySize (findElement Element.isFrameInfo read)) 0 none
  else return none

/-- `read_twcc_sequence`. -/
def readTwccSequence (rtc : Rtc) : MessagePtr → Except Fault (Option UInt16)
  | none => return none
  | some message => do
    if message.bytes.length < 12 || rtc.isRtcp message.bytes then return none
    else if (← version message.bytes) ≠ 2 then return none
    else
      match ← readableExtension message.bytes with
      | none => return none
      | some (body, bodySize) =>
        let read (element : Element) := return some (← readU16 message.bytes (body + element.offset + 1))
        let wanted (element : Element) := decide (element.id = twccExtMapId ∧ element.valueSize = 2)
        loop bodySize 1 (elementTurn message.bytes body bodySize (findElement wanted read)) 0 none

/-! ## Retransmissions -/

/-- The payload moves forward over the original sequence number, the message shrinks, and the header is set. -/
def restoreAt (handler : RtxReceivingHandler) (bytes : List Byte) (payloadOffset : ℕ) :
    Except Fault (List Byte) := do
  let originalSequence ← readU16 bytes payloadOffset
  let moved ← sub (← sub bytes.length payloadOffset) 2
  let payload ← slice bytes (payloadOffset + 2) (payloadOffset + 2 + moved)
  let bytes ← overwrite bytes payloadOffset payload
  let bytes ← slice bytes 0 (← sub bytes.length 2)
  let bytes ← setPayloadType bytes handler.primaryPayloadType
  let bytes ← setSeqNumber bytes originalSequence
  setSsrc bytes handler.primarySsrc

/-- Where the payload of a retransmission starts. -/
def payloadOffset (bytes : List Byte) : Except Fault (Option ℕ) := do
  let fixed ← fixedHeaderSize bytes
  if bytes.length < fixed then return none
  else if ← extension bytes then
    if bytes.length < fixed + 4 then return none
    else return some (fixed + 4 + (← headerLength bytes fixed) * 4)
  else return some fixed

/-- A turn of the loop of `RtxReceivingHandler::incoming`. -/
def restore (rtc : Rtc) (handler : RtxReceivingHandler) : MessagePtr → Except Fault (Option Message)
  | none => return none
  | some message => do
    if !isRtp rtc (some message) then return none
    else if (← payloadType message.bytes) ≠ handler.rtxPayloadType ∨ (← ssrc message.bytes) ≠ handler.rtxSsrc then
      return none
    else
      match ← payloadOffset message.bytes with
      | none => return none
      | some payloadOffset =>
        if message.bytes.length < payloadOffset + 2 then return none
        else return some { message with
          bytes := ← restoreAt handler message.bytes payloadOffset, stream := handler.primarySsrc }

/-- `RtxReceivingHandler::incoming`. -/
def rtxIncoming (rtc : Rtc) (handler : RtxReceivingHandler) :
    List MessagePtr → Except Fault (RtxReceivingHandler × List MessagePtr)
  | [] => return (handler, [])
  | message :: messages => do
    match ← restore rtc handler message with
    | none =>
      let (last, rest) ← rtxIncoming rtc handler messages
      return (last, message :: rest)
    | some restored =>
      let counted := { handler with retransmittedPackets := handler.retransmittedPackets + 1 }
      let (last, rest) ← rtxIncoming rtc counted messages
      return (last, some restored :: rest)

/-! ## Feedback -/

/-- The groups of a NACK packet, as many as `getSeqNoCount` says. -/
def nackParts (bytes : List Byte) (offset : ℕ) : Except Fault (List NackGroup) := do
  let count ← sub (← rtcpLength bytes offset) 2
  (List.range count).mapM fun i =>
    return ⟨← readU16 bytes (offset + 12 + 4 * i), ← readU16 bytes (offset + 12 + 4 * i + 2)⟩

def observePacket (bytes : List Byte) (offset packetSize : ℕ) (feedback : Feedback) : Except Fault Feedback := do
  let type ← rtcpType bytes offset
  let format ← reportCount bytes offset
  if type = rtcpTransportFeedback ∧ format = nackFeedbackFormat ∧ packetSize ≥ 12 then
    return { feedback with
      retransmittedPackets := feedback.retransmittedPackets +
        ((← nackParts bytes offset).flatMap NackGroup.sequenceNumbers).length }
  else if type = rtcpPayloadFeedback ∧ format = pliFeedbackFormat then
    return { feedback with pliPackets := feedback.pliPackets + 1, requestKeyframe := true }
  else if type = rtcpApp ∧ packetSize ≥ keyframeAckSize then
    if (← readU32 bytes (offset + 8)) = keyframeAckName then return { feedback with keyframeAcknowledged := true }
    else return feedback
  else return feedback

/-- A turn of the loop over the packets of a message. -/
def packetTurn (bytes : List Byte) (offset : ℕ) (feedback : Feedback) : Except Fault (Turn Feedback) := do
  let packetSize ← lengthInBytes bytes offset
  if packetSize < 4 ∨ offset + packetSize > bytes.length then return .stop feedback
  else return .next (offset + packetSize) (← observePacket bytes offset packetSize feedback)

def observeMessage (feedback : Feedback) : MessagePtr → Except Fault Feedback
  | none => return feedback
  | some message =>
    if message.type ≠ .control ∨ message.bytes.length < 4 then return feedback
    else loop message.bytes.length 4 (packetTurn message.bytes) 0 feedback

/-- `sender_incoming`. -/
def senderIncoming (s : Sender) (messages : List MessagePtr) : Except Fault (Sender × Feedback) := do
  let feedback ← messages.foldlM observeMessage {}
  return ({ s with
      retransmittedPackets := s.retransmittedPackets + feedback.retransmittedPackets
      pliPackets := s.pliPackets + feedback.pliPackets }, feedback)

/-! ## Frames of an elementary stream -/

/-- The bytes from an offset on are compared with some code, up to the first that differs. -/
def standsAt (bytes : List Byte) (offset : ℕ) : List Byte → Except Fault Bool
  | [] => return true
  | expected :: code => do
    if (← byteAt bytes offset) = expected then standsAt bytes (offset + 1) code else return false

/-- The NAL header behind a start code at `i`. -/
def nalHeaderAt (frame : List Byte) (i : ℕ) : Except Fault (Option ℕ) := do
  if ← standsAt frame i [0, 0, 1] then return some (i + 3)
  else if i + 5 < frame.length then
    if ← standsAt frame i [0, 0, 0, 1] then return some (i + 4) else return none
  else return none

/-- A turn of the loop of `contains_h264_idr`. -/
def idrTurn (frame : List Byte) (i : ℕ) (found : Bool) : Except Fault (Turn Bool) := do
  match ← nalHeaderAt frame i with
  | none => return .next (i + 1) found
  | some header =>
    if (← byteAt frame header) &&& 0x1f = 5 then return .stop true else return .next (i + 1) found

/-- `contains_h264_idr`. -/
def containsH264Idr (frame : List Byte) : Except Fault Bool := loop frame.length 5 (idrTurn frame) 0 false

end WeakNetVideo.Checked
