import WeakNetVideo.Model.HeaderExtension

/-! # Per-packet frame metadata

Every media packet of a frame carries, in a 12-byte element of id 4, the encoder epoch, the frame id,
the packet's index and the frame's packet count, and whether the frame is a keyframe.
-/

namespace WeakNetVideo

open BigEndian

/-- `kFrameInfoExtMapId` and `kFrameMetadataSize`. -/
def frameInfoExtMapId : Byte := 4
def frameMetadataSize : ℕ := 12

structure FrameMetadata where
  epoch : UInt16 := 0
  frameId : UInt32 := 0
  packetIndex : UInt16 := 0
  packetCount : UInt16 := 0
  keyframe : Bool := false
deriving DecidableEq, Repr

/-- The value of the element: a version nibble with the keyframe bit, the fields, a spare byte. -/
def FrameMetadata.value (metadata : FrameMetadata) : List Byte :=
  (0x10 ||| if metadata.keyframe then 0x01 else 0) :: (bytesU16 metadata.epoch ++
    (bytesU32 metadata.frameId ++ (bytesU16 metadata.packetIndex ++
      (bytesU16 metadata.packetCount ++ [0]))))

/-- The descriptor byte of the element. -/
def frameInfoDescriptor : Byte := frameInfoExtMapId <<< 4 ||| UInt8.ofNat (frameMetadataSize - 1)

def addFrameMetadata (rtc : Rtc) (metadata : FrameMetadata) (message : Message) : Message :=
  if isRtp rtc (some message) then
    { message with
      bytes := rewriteExtension message.bytes (frameInfoDescriptor :: metadata.value) }
  else message

/-- Read the fields out of the bytes behind the descriptor; other versions are refused. -/
def FrameMetadata.ofValue (value : List Byte) : Option FrameMetadata :=
  if value.getD 0 0 >>> 4 ≠ 1 then none
  else some {
    keyframe := value.getD 0 0 &&& 0x01 ≠ 0
    epoch := readU16 value 1
    frameId := readU32 value 3
    packetIndex := readU16 value 7
    packetCount := readU16 value 9 }

def Element.isFrameInfo (element : Element) : Bool :=
  element.id = frameInfoExtMapId && element.valueSize = frameMetadataSize

/-- The metadata of the first frame-info element of a packet. -/
def readFrameMetadata (rtc : Rtc) (message : Message) : Option FrameMetadata :=
  if isRtp rtc (some message) then
    (readableExtension message.bytes).bind fun body =>
      ((elements body).find? Element.isFrameInfo).bind fun element =>
        FrameMetadata.ofValue (body.drop (element.offset + 1))
  else none

/-- No element of the packet's extension can be taken for frame metadata. -/
def NoFrameInfo (message : Message) : Prop :=
  ∀ body, readableExtension message.bytes = some body →
    (elements body).find? Element.isFrameInfo = none

end WeakNetVideo
