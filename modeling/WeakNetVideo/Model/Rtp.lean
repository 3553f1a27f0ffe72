import WeakNetVideo.Library.BigEndian
import Mathlib.Data.Set.Basic

/-! # Messages and the RTP header

A media message is a byte string with the type its transport gave it. The header accessors read the
fixed RTP layout: version, padding, extension bit and CSRC count in the first byte, marker and
payload type in the second, then sequence number, timestamp and SSRC. Whether a byte string is
RTCP is decided by the transport library, which is therefore a parameter.
-/

namespace WeakNetVideo

open BigEndian

abbrev Byte := UInt8

/-- The types a transport gives to a message. -/
inductive MessageType where
  | binary
  | string
  | control
  | reset
deriving DecidableEq, Repr

structure Message where
  type : MessageType := .binary
  bytes : List Byte
  stream : UInt32 := 0
deriving DecidableEq, Repr

/-- A shared pointer to a message, or null. -/
abbrev MessagePtr := Option Message

/-- What the handlers ask of the transport library about raw bytes. -/
structure Rtc where
  isRtcp : List Byte → Bool

/-- Demultiplexing looks at the second byte of anything as long as an RTP header. -/
def Rtc.DemultiplexesBySecondByte (rtc : Rtc) : Prop :=
  ∀ left right : List Byte, 12 ≤ left.length → 12 ≤ right.length → left[1]? = right[1]? →
    rtc.isRtcp left = rtc.isRtcp right

/-- The demultiplexing of RFC 5761: packet types 64 to 95 are RTCP. -/
def Rtc.rfc5761 : Rtc where
  isRtcp bytes :=
    8 ≤ bytes.length && 64 ≤ bytes.getD 1 0 &&& 0x7f && bytes.getD 1 0 &&& 0x7f ≤ 95

theorem Rtc.rfc5761_demultiplexes : Rtc.rfc5761.DemultiplexesBySecondByte := by
  intro left right longLeft longRight second
  simp only [Rtc.rfc5761, List.getD_eq_getElem?_getD, second,
    show 8 ≤ left.length by omega, show 8 ≤ right.length by omega]

namespace Rtp

/-- The sizes of the fixed RTP header and of the header of its extension. -/
abbrev headerSize : ℕ := 12
abbrev extensionHeaderSize : ℕ := 4

def byteAt (bytes : List Byte) (index : ℕ) : Byte := bytes.getD index 0

def version (bytes : List Byte) : Byte := byteAt bytes 0 >>> 6
def padding (bytes : List Byte) : Bool := byteAt bytes 0 &&& 0x20 ≠ 0
def extension (bytes : List Byte) : Bool := byteAt bytes 0 &&& 0x10 ≠ 0
def csrcCount (bytes : List Byte) : ℕ := (byteAt bytes 0 &&& 0x0f).toNat
def marker (bytes : List Byte) : Bool := byteAt bytes 1 &&& 0x80 ≠ 0
def payloadType (bytes : List Byte) : Byte := byteAt bytes 1 &&& 0x7f
def seqNumber (bytes : List Byte) : UInt16 := readU16 bytes 2
def timestamp (bytes : List Byte) : UInt32 := readU32 bytes 4
def ssrc (bytes : List Byte) : UInt32 := readU32 bytes 8

/-- The fixed header together with the CSRC list. -/
def fixedHeaderSize (bytes : List Byte) : ℕ := headerSize + csrcCount bytes * 4

/-- The profile and length words of an extension header at an offset. -/
def profileSpecificId (bytes : List Byte) (offset : ℕ) : UInt16 := readU16 bytes offset
def headerLength (bytes : List Byte) (offset : ℕ) : ℕ := (readU16 bytes (offset + 2)).toNat

/-- A packet of dynamic payload type 102 with a bare header, in the stream of the demo's SSRC. -/
def packet (sequence : UInt16) (last : Bool) (payload : List Byte) : Message where
  bytes := [0x80, if last then 0xe6 else 0x66] ++
    (bytesU16 sequence ++ (bytesU32 0 ++ (bytesU32 0x12345678 ++ payload)))
  stream := 0x12345678

end Rtp

/-- The size of the RTP header that a packet declares: fixed header, CSRC list and extension. -/
def declaredHeaderSize (bytes : List Byte) : ℕ :=
  Rtp.fixedHeaderSize bytes +
    if Rtp.extension bytes then
      Rtp.extensionHeaderSize + Rtp.headerLength bytes (Rtp.fixedHeaderSize bytes) * 4
    else 0

/-- A non-null data message that is long enough for an RTP header and is not RTCP. -/
def isRtp (rtc : Rtc) : MessagePtr → Bool
  | none => false
  | some message =>
    message.type ≠ .control && Rtp.headerSize ≤ message.bytes.length && !rtc.isRtcp message.bytes

theorem isRtp_some_iff (rtc : Rtc) (message : Message) : isRtp rtc (some message) = true ↔
    message.type ≠ .control ∧ 12 ≤ message.bytes.length ∧ rtc.isRtcp message.bytes = false := by
  simp only [isRtp, Bool.and_eq_true, decide_eq_true_eq, Bool.not_eq_true', and_assoc, ne_eq]

end WeakNetVideo
