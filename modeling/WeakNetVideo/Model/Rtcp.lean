import WeakNetVideo.Model.Rtp

/-! # RTCP messages

The header of every RTCP packet: a report count or feedback format in the low five bits of the first
byte, the packet type, and the length in words less one. The receiver builds NACKs and the
application-defined `KFOK` acknowledgement; picture loss indications come from the transport library.
-/

namespace WeakNetVideo

open BigEndian

namespace Rtcp

/-- The size of the common header. -/
abbrev headerSize : ℕ := 4

def reportCount (bytes : List Byte) (offset : ℕ) : ℕ := (Rtp.byteAt bytes offset &&& 0x1f).toNat
def payloadType (bytes : List Byte) (offset : ℕ) : Byte := Rtp.byteAt bytes (offset + 1)
def length (bytes : List Byte) (offset : ℕ) : ℕ := (readU16 bytes (offset + 2)).toNat
def lengthInBytes (bytes : List Byte) (offset : ℕ) : ℕ := (1 + length bytes offset) * 4

/-- The common header with its version bits. -/
def header (count : Byte) (type : Byte) (words : UInt16) : List Byte :=
  (0x80 ||| count) :: type :: bytesU16 words

end Rtcp

/-- `kRtcpTransportFeedback`, `kRtcpPayloadFeedback` and `kRtcpApp`. -/
def rtcpTransportFeedback : Byte := 205
def rtcpPayloadFeedback : Byte := 206
def rtcpApp : Byte := 204

/-- `kNackFeedbackFormat` and `kPliFeedbackFormat`. -/
def nackFeedbackFormat : ℕ := 1
def pliFeedbackFormat : ℕ := 1

/-- `kKeyframeAckName`, the letters KFOK, and `kKeyframeAckSize`. -/
def keyframeAckName : UInt32 := 0x4b464f4b
def keyframeAckSize : ℕ := 20

/-- One lost packet and a bitmap of the sixteen that follow it. -/
structure NackGroup where
  pid : UInt16 := 0
  blp : UInt16 := 0
deriving DecidableEq, Repr

/-- Add a missing sequence number to the last group, or open a new one beyond its reach. -/
def addMissing (groups : List NackGroup) (sequence : UInt16) : List NackGroup :=
  match groups.getLast? with
  | none => groups ++ [⟨sequence, 0⟩]
  | some last =>
    if (sequence - last.pid).toNat > 16 then groups ++ [⟨sequence, 0⟩]
    else groups.dropLast ++ [{ last with blp := last.blp ||| (1 <<< (sequence - last.pid - 1)) }]

def nackGroups (missing : List UInt16) : List NackGroup := missing.foldl addMissing []

/-- The feedback message of the groups, under the one SSRC the demo uses. -/
def nackMessage (groups : List NackGroup) : Message where
  type := .control
  bytes := Rtcp.header 1 rtcpTransportFeedback (UInt16.ofNat (2 + groups.length)) ++
    (bytesU32 0x12345678 ++ (bytesU32 0x12345678 ++
      groups.flatMap fun group => bytesU16 group.pid ++ bytesU16 group.blp))

/-- `send_keyframe_ack`: twenty bytes with the name, the epoch and the frame id. -/
def keyframeAck (epoch : UInt16) (frameId : UInt32) : Message where
  type := .control
  bytes := Rtcp.header 0 rtcpApp (UInt16.ofNat (keyframeAckSize / 4 - 1)) ++
    (bytesU32 0 ++ (bytesU32 keyframeAckName ++ (bytesU16 epoch ++ ([0, 0] ++ bytesU32 frameId))))

end WeakNetVideo
