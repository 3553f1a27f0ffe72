import WeakNetVideo.Model.Rtp

/-! # Receiving retransmissions

Retransmissions come in a stream of their own, with a payload type and an SSRC of their own and the
original sequence number in front of the payload. The handler turns such packets back into packets of the
primary stream, in place, before anything else sees them.
-/

namespace WeakNetVideo

open BigEndian

namespace Rtp

/-! ## Writing the fixed header -/

/-- The payload type is set in seven bits; the marker stays. -/
def setPayloadType (bytes : List Byte) (payloadType : Byte) : List Byte :=
  bytes.modify 1 fun byte => (byte &&& 0x80) ||| (payloadType &&& 0x7f)

def setSeqNumber (bytes : List Byte) (sequence : UInt16) : List Byte :=
  bytes.take 2 ++ (bytesU16 sequence ++ bytes.drop 4)

def setSsrc (bytes : List Byte) (ssrc : UInt32) : List Byte :=
  bytes.take 8 ++ (bytesU32 ssrc ++ bytes.drop 12)

end Rtp

/-- The members of `RtxReceivingHandler`. -/
structure RtxReceivingHandler where
  primaryPayloadType : Byte
  rtxPayloadType : Byte
  primarySsrc : UInt32
  rtxSsrc : UInt32
  retransmittedPackets : ℕ := 0
deriving DecidableEq, Repr

/-- The handler of the demo. -/
def RtxReceivingHandler.video : RtxReceivingHandler where
  primaryPayloadType := 102
  rtxPayloadType := 103
  primarySsrc := 0x12345678
  rtxSsrc := 0x12345679

namespace RtxReceivingHandler

/-- The bytes of the primary packet, once the payload is known to start behind the original sequence
number: the payload moves forward by two bytes, and the header is set. -/
def restoreAt (handler : RtxReceivingHandler) (bytes : List Byte) (payloadOffset : ℕ) : List Byte :=
  let moved := bytes.take payloadOffset ++ bytes.drop (payloadOffset + 2)
  Rtp.setSsrc
    (Rtp.setSeqNumber (Rtp.setPayloadType moved handler.primaryPayloadType) (readU16 bytes payloadOffset))
    handler.primarySsrc

/-- One turn of the loop of `incoming`: what the message becomes, or none where the loop goes on. -/
def restore (rtc : Rtc) (handler : RtxReceivingHandler) : MessagePtr → Option Message
  | none => none
  | some message =>
    let bytes := message.bytes
    let restored (payloadOffset : ℕ) : Option Message :=
      if bytes.length < payloadOffset + 2 then none
      else some { message with bytes := handler.restoreAt bytes payloadOffset, stream := handler.primarySsrc }
    if !isRtp rtc (some message) then none
    else if Rtp.payloadType bytes ≠ handler.rtxPayloadType ∨ Rtp.ssrc bytes ≠ handler.rtxSsrc then none
    else
      let fixed := Rtp.fixedHeaderSize bytes
      if bytes.length < fixed then none
      else if Rtp.extension bytes then
        if bytes.length < fixed + Rtp.extensionHeaderSize then none
        else restored (fixed + Rtp.extensionHeaderSize + Rtp.headerLength bytes fixed * 4)
      else restored fixed

/-- `incoming`, over the messages in turn. -/
def incoming (rtc : Rtc) (handler : RtxReceivingHandler) :
    List MessagePtr → RtxReceivingHandler × List MessagePtr
  | [] => (handler, [])
  | message :: messages =>
    match handler.restore rtc message with
    | none =>
      let (last, rest) := handler.incoming rtc messages
      (last, message :: rest)
    | some restored =>
      let counted := { handler with retransmittedPackets := handler.retransmittedPackets + 1 }
      let (last, rest) := counted.incoming rtc messages
      (last, some restored :: rest)

end RtxReceivingHandler

end WeakNetVideo
