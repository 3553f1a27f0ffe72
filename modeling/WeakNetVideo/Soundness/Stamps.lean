import WeakNetVideo.Proofs.ExtensionElements

/-! # The two stamps compose

A packet stamped with a transport sequence number and then with frame metadata reads both back, keeps its
own elements in front of the two new ones, and is otherwise the packet it was. The stamps of one handler
count its packets.
-/

namespace WeakNetVideo

open BigEndian

variable {rtc : Rtc} {message : Message} {body : List Byte}

/-! ## Reading through the element list -/

private theorem find_values {keep : Byte → ℕ → Bool} :
    ((elements body).find? fun element => keep element.id element.valueSize).map
        (fun element => (element.id, element.value body)) =
      (elementValues body).find? fun entry => keep entry.1 entry.2.length := by
  have same : ∀ visited : List Element, (∀ element ∈ visited, element ∈ elements body) →
      (visited.find? fun element => keep element.id element.valueSize).map
          (fun element => (element.id, element.value body)) =
        (visited.map fun element => (element.id, element.value body)).find?
          fun entry => keep entry.1 entry.2.length := by
    intro visited members
    induction visited with
    | nil => rfl
    | cons element visited ih =>
      have size := element.length_value (members element List.mem_cons_self)
      have rest := ih fun other member => members other (List.mem_cons_of_mem _ member)
      rw [List.map_cons, List.find?_cons, List.find?_cons, size]
      cases keep element.id element.valueSize with
      | true => rfl
      | false => exact rest
  exact same _ fun _ member => member

private theorem find_element {keep : Byte → ℕ → Bool} {entry : Byte × List Byte}
    (found : ((elementValues body).find? fun entry => keep entry.1 entry.2.length) = some entry) :
    ∃ element, ((elements body).find? fun element => keep element.id element.valueSize) = some element ∧
      (body.drop (element.offset + 1)).take entry.2.length = entry.2 := by
  rw [← find_values, Option.map_eq_some_iff] at found
  obtain ⟨element, found, same⟩ := found
  have size := element.length_value (List.mem_of_find?_eq_some found)
  have value : element.value body = entry.2 := congrArg Prod.snd same
  refine ⟨element, found, ?_⟩
  rw [← value, size]
  rfl

/-- The entries that the two readers look for. -/
def isTwccEntry (entry : Byte × List Byte) : Bool := entry.1 = twccExtMapId && entry.2.length = 2
def isFrameInfoEntry (entry : Byte × List Byte) : Bool :=
  entry.1 = frameInfoExtMapId && entry.2.length = frameMetadataSize

theorem readTwccSequence_of_find (media : Rtp.headerSize ≤ message.bytes.length)
    (rtp : rtc.isRtcp message.bytes = false) (version : Rtp.version message.bytes = 2)
    (readable : readableExtension message.bytes = some body) {sequence : UInt16}
    (found : (elementValues body).find? isTwccEntry = some (twccExtMapId, bytesU16 sequence)) :
    readTwccSequence rtc (some message) = some sequence := by
  obtain ⟨element, first, bytes⟩ :=
    @find_element body (fun id size => id = twccExtMapId && size = 2) _ found
  have spelled : readU16 body (element.offset + 1) = sequence := by
    have alone := readU16_append [] [] sequence 0 rfl
    rw [length_bytesU16] at bytes
    rw [readU16, valueAt, bytes]
    exact alone
  have long : ¬ message.bytes.length < Rtp.headerSize := Nat.not_lt.mpr media
  simp only [readTwccSequence, long, rtp, version, readable, decide_false, Bool.or_self, Bool.false_eq_true,
    if_false, ne_eq, not_true_eq_false, Option.bind_some, Bool.decide_and, first, Option.map_some, spelled]

theorem readFrameMetadata_of_find (media : isRtp rtc (some message) = true)
    (readable : readableExtension message.bytes = some body) {metadata : FrameMetadata}
    (found : (elementValues body).find? isFrameInfoEntry = some (frameInfoExtMapId, metadata.value)) :
    readFrameMetadata rtc message = some metadata := by
  obtain ⟨element, first, bytes⟩ :=
    @find_element body (fun id size => id = frameInfoExtMapId && size = frameMetadataSize) _ found
  have value : body.drop (element.offset + 1) =
      metadata.value ++ (body.drop (element.offset + 1)).drop metadata.value.length := by
    conv_lhs => rw [← List.take_append_drop metadata.value.length (body.drop (element.offset + 1)), bytes]
  have first' : (elements body).find? Element.isFrameInfo = some element := first
  rw [readFrameMetadata, if_pos media, readable, Option.bind_some, first', Option.bind_some, value]
  exact metadata.ofValue_value _

/-! ## One writer -/

/-- The packets that take a number from `write_twcc_extension`. -/
def numbered (rtc : Rtc) (message : Message) : Bool :=
  Rtp.headerSize ≤ message.bytes.length && !rtc.isRtcp message.bytes && Rtp.version message.bytes = 2 &&
    !Rtp.padding message.bytes && (oldExtension message.bytes).isSome

theorem writeTwccExtension_eq (rtc : Rtc) (next : UInt16) (message : Message) :
    writeTwccExtension rtc next message = if numbered rtc message then
      ({ message with bytes := rewriteExtension message.bytes (twccDescriptor :: bytesU16 next) }, next + 1)
    else (message, next) := by
  by_cases short : message.bytes.length < Rtp.headerSize
  · simp [writeTwccExtension, numbered, short, Nat.not_le.mpr short]
  · simp only [writeTwccExtension, numbered, short, Nat.not_lt.mp short]
    split_ifs <;> simp_all

/-- RTP of version 2 without padding, of a size that fits a datagram, whose header is whole and whose
extension, if it has one, is of the one-byte profile, whole and free of both stamps. -/
structure Stampable (rtc : Rtc) (message : Message) : Prop where
  rtp : isRtp rtc (some message) = true
  version : Rtp.version message.bytes = 2
  padding : Rtp.padding message.bytes = false
  small : message.bytes.length ≤ 65535
  header : Rtp.fixedHeaderSize message.bytes ≤ message.bytes.length
  extension : Rtp.extension message.bytes = true → (readableExtension message.bytes).isSome = true
  unstamped : ∀ entry ∈ elementValues (extensionBody message.bytes),
    isTwccEntry entry = false ∧ isFrameInfoEntry entry = false

theorem Stampable.goesOn (good : Stampable rtc message) : (oldExtension message.bytes).isSome = true := by
  simp only [oldExtension]
  rw [if_neg (Nat.not_lt.mpr good.header)]
  split_ifs with present
  · rw [Option.isSome_map]
    exact good.extension present
  · rfl

theorem Stampable.numbered (good : Stampable rtc message) : numbered rtc message = true := by
  obtain ⟨_, long, media⟩ := (isRtp_some_iff rtc message).mp good.rtp
  simp [WeakNetVideo.numbered, long, media, good.version, good.padding, good.goesOn]

/-- A packet with more elements is still RTP of version 2. -/
theorem isRtp_of_extended (demultiplexes : rtc.DemultiplexesBySecondByte) {rewritten : List Byte}
    {added : List (Byte × List Byte)} (extended : Extended message.bytes added rewritten)
    (rtp : isRtp rtc (some message) = true) :
    isRtp rtc (some { message with bytes := rewritten }) = true := by
  have inside := extended.bodyLength
  have least := headerSize_le_fixedHeaderSize rewritten
  exact isRtp_of_second_byte demultiplexes rtp (by omega) extended.second

theorem version_of_extended {bytes rewritten : List Byte} {added : List (Byte × List Byte)}
    (extended : Extended bytes added rewritten) : Rtp.version rewritten = Rtp.version bytes := by
  have bits : ∀ value : Fin 256, (UInt8.ofNat value ||| 0x10) >>> 6 = UInt8.ofNat value >>> 6 := by
    decide +kernel
  rw [Rtp.version, Rtp.version, extended.firstByte]
  simpa only [UInt8.ofNat_toNat] using bits ⟨(Rtp.byteAt bytes 0).toNat, (Rtp.byteAt bytes 0).toNat_lt⟩

/-! ## Both writers, over a run -/

/-- The counter of a fresh handler after some packets. -/
def twccSequenceAfter (rtc : Rtc) (messages : List Message) : UInt16 :=
  messages.foldl (fun next message => (writeTwccExtension rtc next message).2) 1

/-- The counter counts the packets that took a number. -/
theorem twccSequenceAfter_eq (rtc : Rtc) (messages : List Message) :
    twccSequenceAfter rtc messages = UInt16.ofNat (messages.countP (numbered rtc) + 1) := by
  have from_ (count : ℕ) :
      messages.foldl (fun next message => (writeTwccExtension rtc next message).2) (UInt16.ofNat count) =
        UInt16.ofNat (messages.countP (numbered rtc) + count) := by
    induction messages generalizing count with
    | nil => simp
    | cons message messages ih =>
      rw [List.foldl_cons, writeTwccExtension_eq]
      cases takes : numbered rtc message with
      | true =>
        have next : UInt16.ofNat count + 1 = UInt16.ofNat (count + 1) := by simp [UInt16.ofNat_add]
        simp only [if_true, next, ih, takes, List.countP_cons_of_pos]
        congr 1
        omega
      | false =>
        simp only [Bool.false_eq_true, if_false, ih]
        rw [List.countP_cons_of_neg (by simp [takes])]
  exact from_ 1

/-- A packet with both stamps: they are read back, its elements come first, and it is otherwise the
packet it was. -/
structure CarriesStamps (rtc : Rtc) (message : Message) (sequence : UInt16) (metadata : FrameMetadata)
    (stamped : Message) : Prop where
  readsSequence : readTwccSequence rtc (some stamped) = some sequence
  readsMetadata : readFrameMetadata rtc stamped = some metadata
  extended : Extended message.bytes
    [(twccExtMapId, bytesU16 sequence), (frameInfoExtMapId, metadata.value)] stamped.bytes
  type : stamped.type = message.type
  stream : stamped.stream = message.stream

private theorem find_stamps {entries : List (Byte × List Byte)} (sequence : UInt16) (metadata : FrameMetadata)
    (unstamped : ∀ entry ∈ entries, isTwccEntry entry = false ∧ isFrameInfoEntry entry = false) :
    let all := entries ++ [(twccExtMapId, bytesU16 sequence), (frameInfoExtMapId, metadata.value)]
    all.find? isTwccEntry = some (twccExtMapId, bytesU16 sequence) ∧
      all.find? isFrameInfoEntry = some (frameInfoExtMapId, metadata.value) := by
  have twcc : entries.find? isTwccEntry = none :=
    List.find?_eq_none.mpr fun entry member => by simp [(unstamped entry member).1]
  have frame : entries.find? isFrameInfoEntry = none :=
    List.find?_eq_none.mpr fun entry member => by simp [(unstamped entry member).2]
  have other : twccExtMapId ≠ frameInfoExtMapId := by decide
  simp [List.find?_append, twcc, frame, isTwccEntry, isFrameInfoEntry, frameMetadataSize, other]

/-- In whatever run, the packet that takes the i-th number of a fresh handler carries i modulo 2^16 and
the metadata it is then given. -/
theorem stamps_compose (rtc : Rtc) (demultiplexes : rtc.DemultiplexesBySecondByte) (before : List Message)
    (message : Message) (good : Stampable rtc message) (metadata : FrameMetadata) :
    numbered rtc message = true ∧
      CarriesStamps rtc message (UInt16.ofNat (before.countP (numbered rtc) + 1)) metadata
        (addFrameMetadata rtc metadata
          (writeTwccExtension rtc (twccSequenceAfter rtc before) message).1) := by
  refine ⟨good.numbered, ?_⟩
  rw [writeTwccExtension_eq, if_pos good.numbered, twccSequenceAfter_eq]
  generalize UInt16.ofNat (before.countP (numbered rtc) + 1) = sequence
  obtain ⟨old, goesOn⟩ := Option.isSome_iff_exists.mp good.goesOn
  have kept := (oldExtension_some goesOn).2
  have small := good.small
  have first : Extended message.bytes [(twccExtMapId, bytesU16 sequence)]
      (rewriteExtension message.bytes (twccDescriptor :: bytesU16 sequence)) :=
    extended_rewriteExtension goesOn (by simp; omega) (by decide) (by decide) (by decide) (by simp; decide)
  have width := @length_extensionBody_le _ _ goesOn (twccDescriptor :: bytesU16 sequence) (by simp; omega)
  have rtp := isRtp_of_extended demultiplexes first good.rtp
  have version := (version_of_extended first).trans good.version
  generalize rewriteExtension message.bytes (twccDescriptor :: bytesU16 sequence) = numbered_ at *
  obtain ⟨old', goesOn'⟩ := Option.isSome_iff_exists.mp first.oldExtension_isSome
  have kept' : old'.1.length ≤ (extensionBody numbered_).length := by
    rw [(oldExtension_eq goesOn').1, List.length_take]
    exact Nat.min_le_right ..
  have second : Extended numbered_ [(frameInfoExtMapId, metadata.value)]
      (rewriteExtension numbered_ (frameInfoDescriptor :: metadata.value)) :=
    extended_rewriteExtension goesOn' (by simp at width ⊢; omega) (by decide) (by decide) (by decide)
      (by simp; decide)
  have rtp' : isRtp rtc (some { message with
      bytes := rewriteExtension numbered_ (frameInfoDescriptor :: metadata.value) }) = true :=
    @isRtp_of_extended rtc { message with bytes := numbered_ } demultiplexes _ _ second rtp
  have version' := (version_of_extended second).trans version
  have both := first.trans second
  rw [addFrameMetadata, if_pos rtp]
  dsimp only
  generalize rewriteExtension numbered_ (frameInfoDescriptor :: metadata.value) = stamped at *
  obtain ⟨_, long, media⟩ := (isRtp_some_iff rtc _).mp rtp'
  obtain ⟨found, found'⟩ := find_stamps sequence metadata good.unstamped
  exact ⟨readTwccSequence_of_find long media version' both.readable (by rw [both.elements]; exact found),
    readFrameMetadata_of_find rtp' both.readable (by rw [both.elements]; exact found'), both, rfl, rfl⟩

/-- A packet with a CSRC and an extension of an element, a zero byte and an element that is cut off. -/
private def crowded : Message where
  bytes := [0x91, 0xe6] ++ (bytesU16 5 ++ (bytesU32 3000 ++ (bytesU32 0x12345678 ++ (bytesU32 7 ++
    ([0xbe, 0xde, 0, 2, 0x10, 0xaa, 0, 0x5f, 1, 2, 3, 4] ++ [7, 8, 9])))))

private theorem crowded_stampable : Stampable .rfc5761 crowded := by
  constructor <;> decide +kernel

/-- It comes behind one packet of the stream and a receiver report, and takes the second number. -/
theorem stamps_compose_crowded :
    numbered .rfc5761 crowded = true ∧
      CarriesStamps .rfc5761 crowded
        (UInt16.ofNat ([Rtp.packet 4 false [1], nackMessage []].countP (numbered .rfc5761) + 1)) ⟨1, 9, 0, 1, true⟩
        (addFrameMetadata .rfc5761 ⟨1, 9, 0, 1, true⟩ (writeTwccExtension .rfc5761
          (twccSequenceAfter .rfc5761 [Rtp.packet 4 false [1], nackMessage []]) crowded).1) ∧
      twccSequenceAfter .rfc5761 [Rtp.packet 4 false [1], nackMessage []] = 2 :=
  and_assoc.mp ⟨stamps_compose .rfc5761 Rtc.rfc5761_demultiplexes _ crowded crowded_stampable _,
    by decide +kernel⟩

end WeakNetVideo
