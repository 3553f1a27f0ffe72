import WeakNetVideo.Model.FrameMetadata
import WeakNetVideo.Proofs.HeaderExtension

/-! # Stamping round trip

Reading back a stamped packet gives the stamp, provided the packet carried no frame metadata of its
own. A packet whose header a writer refuses stays as it was, and such a packet reads as unstamped.
-/

namespace WeakNetVideo

open BigEndian

@[simp] theorem FrameMetadata.length_value (metadata : FrameMetadata) : metadata.value.length = 12 := by
  simp [FrameMetadata.value]

/-- The value of the element spells its metadata, whatever follows it. -/
theorem FrameMetadata.ofValue_value (metadata : FrameMetadata) (after : List Byte) :
    FrameMetadata.ofValue (metadata.value ++ after) = some metadata := by
  obtain ⟨epoch, frameId, packetIndex, packetCount, keyframe⟩ := metadata
  have version : (0x10 ||| if keyframe then 0x01 else 0 : Byte) >>> 4 = 1 := by
    cases keyframe <;> decide
  have key : decide ((0x10 ||| if keyframe then 0x01 else 0 : Byte) &&& 0x01 ≠ 0) = keyframe := by
    cases keyframe <;> decide
  generalize first_eq : (0x10 ||| if keyframe then 0x01 else 0 : Byte) = first at version key
  have parts : FrameMetadata.value ⟨epoch, frameId, packetIndex, packetCount, keyframe⟩ ++ after =
      first :: (bytesU16 epoch ++ (bytesU32 frameId ++ (bytesU16 packetIndex ++
        (bytesU16 packetCount ++ (0 :: after))))) := by
    simp only [FrameMetadata.value, first_eq, List.cons_append, List.append_assoc, List.nil_append]
  rw [parts]
  have epochAt := readU16_append [first] (bytesU32 frameId ++ (bytesU16 packetIndex ++
    (bytesU16 packetCount ++ (0 :: after)))) epoch 1 rfl
  have idAt := readU32_append (first :: bytesU16 epoch) (bytesU16 packetIndex ++
    (bytesU16 packetCount ++ (0 :: after))) frameId 3 (by simp)
  have indexAt := readU16_append (first :: (bytesU16 epoch ++ bytesU32 frameId))
    (bytesU16 packetCount ++ (0 :: after)) packetIndex 7 (by simp)
  have countAt := readU16_append (first :: (bytesU16 epoch ++ (bytesU32 frameId ++ bytesU16 packetIndex)))
    (0 :: after) packetCount 9 (by simp)
  simp only [List.cons_append, List.nil_append, List.append_assoc] at epochAt idAt indexAt countAt
  simp only [FrameMetadata.ofValue, List.getD_cons_zero, version, ne_eq, not_true_eq_false, if_false,
    epochAt, idAt, indexAt, countAt]
  exact congrArg some (congrArg (FrameMetadata.mk epoch frameId packetIndex packetCount) key)

/-- The element a stamp appends to the body. -/
theorem elements_stamped (body : List Byte) (metadata : FrameMetadata) :
    elements (padToWord (body.take (usedSize body) ++ frameInfoDescriptor :: metadata.value)) =
      elements body ++ [⟨usedSize body, frameInfoExtMapId, frameMetadataSize⟩] := by
  have appended := elements_rewritten body metadata.value frameInfoDescriptor
    ((4 - (body.take (usedSize body) ++ frameInfoDescriptor :: metadata.value).length % 4) % 4)
    (by decide) (by decide) (by rw [metadata.length_value]; decide)
  rw [metadata.length_value] at appended
  rw [padToWord, List.append_assoc]
  exact appended

theorem isRtp_of_second_byte {rtc : Rtc} (demultiplexes : rtc.DemultiplexesBySecondByte)
    {message : Message} {bytes : List Byte} (rtp : isRtp rtc (some message) = true)
    (long : 12 ≤ bytes.length) (second : bytes[1]? = message.bytes[1]?) :
    isRtp rtc (some { message with bytes := bytes }) = true := by
  obtain ⟨data, length, media⟩ := (isRtp_some_iff rtc message).mp rtp
  refine (isRtp_some_iff rtc _).mpr ⟨data, long, ?_⟩
  rw [← media]
  exact demultiplexes _ _ long length second

/-- A stamped packet is still RTP. -/
theorem isRtp_addFrameMetadata {rtc : Rtc} (demultiplexes : rtc.DemultiplexesBySecondByte)
    (metadata : FrameMetadata) {message : Message} (rtp : isRtp rtc (some message) = true) :
    isRtp rtc (some (addFrameMetadata rtc metadata message)) = true := by
  rw [addFrameMetadata, if_pos rtp]
  cases old : oldExtension message.bytes with
  | none => simpa only [rewriteExtension, old] using rtp
  | some extension =>
    obtain ⟨kept, payloadOffset⟩ := extension
    have least := headerSize_le_fixedHeaderSize message.bytes
    refine isRtp_of_second_byte demultiplexes rtp ?_
      (rewriteExtension_getElem? old (by omega) (by omega))
    rw [rewriteExtension_of_old old, List.length_append, length_rewrittenHeader (oldExtension_some old).1]
    omega

private theorem find_stamped (body : List Byte) (metadata : FrameMetadata)
    (clear : (elements body).find? Element.isFrameInfo = none) :
    ((elements (padToWord (body.take (usedSize body) ++ frameInfoDescriptor :: metadata.value))).find?
      Element.isFrameInfo).bind (fun element => FrameMetadata.ofValue
        ((padToWord (body.take (usedSize body) ++ frameInfoDescriptor :: metadata.value)).drop
          (element.offset + 1))) = some metadata := by
  have info : Element.isFrameInfo ⟨usedSize body, frameInfoExtMapId, frameMetadataSize⟩ = true := by
    simp [Element.isFrameInfo]
  rw [elements_stamped, List.find?_append, clear, Option.none_or, List.find?_singleton, if_pos info,
    Option.bind_some, padToWord, List.append_assoc]
  have kept : (body.take (usedSize body)).length = usedSize body := by
    rw [List.length_take, Nat.min_eq_left (usedSize_le body)]
  rw [← List.singleton_append, List.append_assoc, ← List.append_assoc,
    List.drop_left' (by simp [kept])]
  exact metadata.ofValue_value _

/-- Reading a packet back after stamping: the stamp, or nothing where the writer refused. -/
theorem readFrameMetadata_addFrameMetadata {rtc : Rtc}
    (demultiplexes : rtc.DemultiplexesBySecondByte) (metadata : FrameMetadata) {message : Message}
    (rtp : isRtp rtc (some message) = true) (small : message.bytes.length ≤ 65535)
    (clear : NoFrameInfo message) :
    readFrameMetadata rtc (addFrameMetadata rtc metadata message) = some metadata ∨
      readFrameMetadata rtc (addFrameMetadata rtc metadata message) = none := by
  have stamped := isRtp_addFrameMetadata demultiplexes metadata rtp
  rw [readFrameMetadata, if_pos stamped, addFrameMetadata, if_pos rtp]
  dsimp only
  cases old : oldExtension message.bytes with
  | none =>
    right
    simp only [rewriteExtension, old]
    cases read : readableExtension message.bytes with
    | none => rfl
    | some body => simp only [Option.bind_some, clear body read, Option.bind_none]
  | some extension =>
    left
    obtain ⟨kept, payloadOffset⟩ := extension
    have fits : kept.length + (frameInfoDescriptor :: metadata.value).length < 4 * 65535 := by
      have := (oldExtension_some old).2
      simp
      omega
    rw [readableExtension_rewriteExtension old fits, Option.bind_some]
    obtain ⟨-, ⟨-, body, read, rfl, -⟩ | ⟨-, rfl, -⟩⟩ := oldExtension_cases old
    · exact find_stamped body metadata (clear body read)
    · exact find_stamped [] metadata rfl

end WeakNetVideo
