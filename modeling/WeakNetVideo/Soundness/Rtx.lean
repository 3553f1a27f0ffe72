import WeakNetVideo.Model.Rtx

/-! # Retransmissions restore the primary packets

Encapsulating a packet of the primary stream and receiving the result is the identity, whatever CSRC list
and header extension the packet has. Any other message stays as it is.
-/

namespace WeakNetVideo

open BigEndian

/-- A packet under another payload type, sequence number and SSRC. -/
def Rtp.relabel (bytes : List Byte) (payloadType : Byte) (sequence : UInt16) (ssrc : UInt32) : List Byte :=
  Rtp.setSsrc (Rtp.setSeqNumber (Rtp.setPayloadType bytes payloadType) sequence) ssrc

/-- The retransmission of a packet: its sequence number goes in front of its payload, and it is sent in
the stream of the retransmissions. -/
def RtxReceivingHandler.encapsulate (handler : RtxReceivingHandler) (sequence : UInt16) (packet : List Byte) :
    List Byte :=
  Rtp.relabel (packet.take (declaredHeaderSize packet) ++
      (bytesU16 (Rtp.seqNumber packet) ++ packet.drop (declaredHeaderSize packet)))
    handler.rtxPayloadType sequence handler.rtxSsrc

/-- A packet of the primary stream with a header as long as it declares. -/
structure IsPrimaryPacket (handler : RtxReceivingHandler) (packet : List Byte) : Prop where
  payloadType : Rtp.payloadType packet = handler.primaryPayloadType
  ssrc : Rtp.ssrc packet = handler.primarySsrc
  header : declaredHeaderSize packet ≤ packet.length

/-- A retransmission: RTP of the other stream with a header as long as it declares and two bytes more. -/
structure IsRtxPacket (rtc : Rtc) (handler : RtxReceivingHandler) (message : Message) : Prop where
  rtp : isRtp rtc (some message) = true
  payloadType : Rtp.payloadType message.bytes = handler.rtxPayloadType
  ssrc : Rtp.ssrc message.bytes = handler.rtxSsrc
  size : declaredHeaderSize message.bytes + 2 ≤ message.bytes.length

instance (rtc : Rtc) (handler : RtxReceivingHandler) (message : Message) :
    Decidable (IsRtxPacket rtc handler message) :=
  decidable_of_iff (isRtp rtc (some message) = true ∧ Rtp.payloadType message.bytes = handler.rtxPayloadType ∧
      Rtp.ssrc message.bytes = handler.rtxSsrc ∧
      declaredHeaderSize message.bytes + 2 ≤ message.bytes.length)
    ⟨fun ⟨rtp, payloadType, ssrc, size⟩ => ⟨rtp, payloadType, ssrc, size⟩,
      fun ⟨rtp, payloadType, ssrc, size⟩ => ⟨rtp, payloadType, ssrc, size⟩⟩

variable {rtc : Rtc} {handler : RtxReceivingHandler} {packet : List Byte} {message : Message}

/-! ## One turn of the loop -/

theorem restore_of_isRtxPacket (rtx : IsRtxPacket rtc handler message) :
    handler.restore rtc (some message) = some { message with
      bytes := handler.restoreAt message.bytes (declaredHeaderSize message.bytes)
      stream := handler.primarySsrc } := by
  obtain ⟨rtp, payloadType, ssrc, size⟩ := rtx
  simp only [declaredHeaderSize] at size ⊢
  simp only [RtxReceivingHandler.restore, rtp, payloadType, ssrc]
  by_cases extended : Rtp.extension message.bytes = true
  · simp only [extended, if_true, Rtp.extensionHeaderSize] at size ⊢
    simp [show ¬ message.bytes.length < Rtp.fixedHeaderSize message.bytes by omega,
      show ¬ message.bytes.length < Rtp.fixedHeaderSize message.bytes + 4 by omega, Nat.add_assoc,
      show ¬ message.bytes.length < Rtp.fixedHeaderSize message.bytes + (4 +
        (Rtp.headerLength message.bytes (Rtp.fixedHeaderSize message.bytes) * 4 + 2)) by omega]
  · simp only [extended, Bool.false_eq_true, if_false] at size ⊢
    simp [show ¬ message.bytes.length < Rtp.fixedHeaderSize message.bytes by omega,
      show ¬ message.bytes.length < Rtp.fixedHeaderSize message.bytes + 2 by omega]

theorem isRtxPacket_of_restore {restored : Message} (some_ : handler.restore rtc (some message) = some restored) :
    IsRtxPacket rtc handler message := by
  simp only [RtxReceivingHandler.restore] at some_
  split_ifs at some_ with silent other short extended cut small small'
  · obtain ⟨payloadType, ssrc⟩ := not_or.mp other
    refine ⟨by simpa using silent, not_not.mp payloadType, not_not.mp ssrc, ?_⟩
    rw [declaredHeaderSize, if_pos extended, ← Nat.add_assoc]
    exact Nat.le_of_not_lt small
  · obtain ⟨payloadType, ssrc⟩ := not_or.mp other
    refine ⟨by simpa using silent, not_not.mp payloadType, not_not.mp ssrc, ?_⟩
    rw [declaredHeaderSize, if_neg extended]
    exact Nat.le_of_not_lt small'

theorem restore_of_not_isRtxPacket (other : ¬ IsRtxPacket rtc handler message) :
    handler.restore rtc (some message) = none :=
  Option.eq_none_iff_forall_ne_some.mpr fun _ some_ => other (isRtxPacket_of_restore some_)

/-! ## Relabelling -/

/-- The seven bits of a payload type and the marker of a byte are set apart. -/
private theorem marker_payloadType (byte type : Byte) :
    (byte &&& 0x80 ||| type &&& 0x7f) &&& 0x7f = type &&& 0x7f ∧
      (byte &&& 0x80 ||| type &&& 0x7f) &&& 0x80 = byte &&& 0x80 := by
  have halves : ∀ value : Fin 256, (UInt8.ofNat value &&& 0x80) &&& 0x7f = 0 ∧
      (UInt8.ofNat value &&& 0x7f) &&& 0x80 = 0 ∧
      (UInt8.ofNat value &&& 0x7f) &&& 0x7f = UInt8.ofNat value &&& 0x7f ∧
      (UInt8.ofNat value &&& 0x80) &&& 0x80 = UInt8.ofNat value &&& 0x80 := by decide +kernel
  have byte_ := halves ⟨byte.toNat, byte.toNat_lt⟩
  have type_ := halves ⟨type.toNat, type.toNat_lt⟩
  simp only [UInt8.ofNat_toNat] at byte_ type_
  have join (mask : Byte) : (byte &&& 0x80 ||| type &&& 0x7f) &&& mask =
      (byte &&& 0x80) &&& mask ||| (type &&& 0x7f) &&& mask :=
    UInt8.toNat_inj.mp (by simp only [UInt8.toNat_and, UInt8.toNat_or, Nat.and_or_distrib_right])
  rw [join, join, byte_.1, byte_.2.2.2, type_.2.1, type_.2.2.1]
  exact ⟨UInt8.zero_or, UInt8.or_zero⟩

private theorem marker_join (byte : Byte) : byte &&& 0x80 ||| byte &&& 0x7f = byte := by
  have all : ∀ value : Fin 256, UInt8.ofNat value &&& 0x80 ||| UInt8.ofNat value &&& 0x7f =
      UInt8.ofNat value := by decide +kernel
  simpa only [UInt8.ofNat_toNat] using all ⟨byte.toNat, byte.toNat_lt⟩

/-- A whole fixed header, and what follows it. -/
private theorem split_header (bytes : List Byte) (long : 12 ≤ bytes.length) :
    ∃ b0 b1 b2 b3 b4 b5 b6 b7 b8 b9 b10 b11 rest,
      bytes = b0 :: b1 :: b2 :: b3 :: b4 :: b5 :: b6 :: b7 :: b8 :: b9 :: b10 :: b11 :: rest := by
  match bytes, long with
  | b0 :: b1 :: b2 :: b3 :: b4 :: b5 :: b6 :: b7 :: b8 :: b9 :: b10 :: b11 :: rest, _ =>
    exact ⟨b0, b1, b2, b3, b4, b5, b6, b7, b8, b9, b10, b11, rest, rfl⟩

private theorem relabel_cons (type : Byte) (sequence : UInt16) (ssrc : UInt32)
    (b0 b1 b2 b3 b4 b5 b6 b7 b8 b9 b10 b11 : Byte) (rest : List Byte) :
    Rtp.relabel (b0 :: b1 :: b2 :: b3 :: b4 :: b5 :: b6 :: b7 :: b8 :: b9 :: b10 :: b11 :: rest)
        type sequence ssrc =
      b0 :: (b1 &&& 0x80 ||| type &&& 0x7f) :: (bytesU16 sequence ++
        (b4 :: b5 :: b6 :: b7 :: (bytesU32 ssrc ++ rest))) := rfl

/-- Relabelling touches the fixed header only, leaves its first byte alone and can be undone. -/
private theorem relabel_spec (type : Byte) (sequence : UInt16) (ssrc : UInt32) {header : List Byte}
    (twelve : header.length = 12) (rest : List Byte) :
    let relabelled := Rtp.relabel header type sequence ssrc
    Rtp.relabel (header ++ rest) type sequence ssrc = relabelled ++ rest ∧ relabelled.length = 12 ∧
      Rtp.byteAt relabelled 0 = Rtp.byteAt header 0 ∧ Rtp.payloadType relabelled = type &&& 0x7f ∧
      Rtp.ssrc relabelled = ssrc ∧
      Rtp.relabel relabelled (Rtp.payloadType header) (Rtp.seqNumber header) (Rtp.ssrc header) = header := by
  obtain ⟨b0, b1, b2, b3, b4, b5, b6, b7, b8, b9, b10, b11, more, rfl⟩ := split_header header (by omega)
  obtain rfl : more = [] := by simpa using twelve
  intro relabelled
  refine ⟨rfl, rfl, rfl, (marker_payloadType b1 type).1, ?_, ?_⟩
  · exact readU32_append (b0 :: (b1 &&& 0x80 ||| type &&& 0x7f) :: (bytesU16 sequence ++ [b4, b5, b6, b7]))
      [] ssrc 8 rfl
  · have first : (b1 &&& 0x80 ||| type &&& 0x7f) &&& 0x80 ||| (b1 &&& 0x7f) &&& 0x7f = b1 := by
      have idempotent : (b1 &&& 0x7f) &&& 0x7f = b1 &&& 0x7f := by rw [UInt8.and_assoc, UInt8.and_self]
      rw [(marker_payloadType b1 type).2, idempotent, marker_join]
    have number : bytesU16 (Rtp.seqNumber [b0, b1, b2, b3, b4, b5, b6, b7, b8, b9, b10, b11]) = [b2, b3] :=
      bytesU16_readU16 b2 b3 _
    have source : bytesU32 (Rtp.ssrc [b0, b1, b2, b3, b4, b5, b6, b7, b8, b9, b10, b11]) =
        [b8, b9, b10, b11] := bytesU32_readU32 b8 b9 b10 b11 _
    have again : Rtp.relabel relabelled _ _ _ = _ := relabel_cons
      (Rtp.payloadType [b0, b1, b2, b3, b4, b5, b6, b7, b8, b9, b10, b11])
      (Rtp.seqNumber [b0, b1, b2, b3, b4, b5, b6, b7, b8, b9, b10, b11])
      (Rtp.ssrc [b0, b1, b2, b3, b4, b5, b6, b7, b8, b9, b10, b11])
      b0 (b1 &&& 0x80 ||| type &&& 0x7f) _ _ b4 b5 b6 b7 _ _ _ _ []
    rw [again, number, source]
    exact congrArg (fun byte => [b0, byte, b2, b3, b4, b5, b6, b7, b8, b9, b10, b11]) first

/-! ## There and back -/

private theorem fields_append {header : List Byte} (twelve : header.length = 12) (rest : List Byte) :
    Rtp.byteAt (header ++ rest) 0 = Rtp.byteAt header 0 ∧
      Rtp.payloadType (header ++ rest) = Rtp.payloadType header ∧
      Rtp.seqNumber (header ++ rest) = Rtp.seqNumber header ∧ Rtp.ssrc (header ++ rest) = Rtp.ssrc header := by
  obtain ⟨b0, b1, b2, b3, b4, b5, b6, b7, b8, b9, b10, b11, more, rfl⟩ := split_header header (by omega)
  exact ⟨rfl, rfl, rfl, rfl⟩

private theorem twelve_le_declared (bytes : List Byte) : 12 ≤ declaredHeaderSize bytes := by
  simp only [declaredHeaderSize, Rtp.fixedHeaderSize, Rtp.headerSize]
  omega

/-- A packet with a whole header: the fixed part, the CSRC list with the extension, and the payload. -/
private theorem split_packet (whole : declaredHeaderSize packet ≤ packet.length) :
    ∃ header middle payload, header.length = 12 ∧ declaredHeaderSize packet = 12 + middle.length ∧
      packet = header ++ (middle ++ payload) := by
  have twelve := twelve_le_declared packet
  refine ⟨packet.take 12, (packet.take (declaredHeaderSize packet)).drop 12,
    packet.drop (declaredHeaderSize packet), ?_, ?_, ?_⟩
  · rw [List.length_take]
    omega
  · rw [List.length_drop, List.length_take]
    omega
  · have first : packet.take 12 = (packet.take (declaredHeaderSize packet)).take 12 := by
      rw [List.take_take, Nat.min_eq_left twelve]
    rw [first, ← List.append_assoc, List.take_append_drop, List.take_append_drop]

/-- The declared size is read from the first byte and from what stands between the fixed header and the
payload. -/
private theorem declared_congr {header header' middle tail tail' : List Byte} (twelve : header.length = 12)
    (twelve' : header'.length = 12) (first : Rtp.byteAt header' 0 = Rtp.byteAt header 0)
    (size : declaredHeaderSize (header ++ (middle ++ tail)) = 12 + middle.length) :
    declaredHeaderSize (header' ++ (middle ++ tail')) = 12 + middle.length := by
  have same : Rtp.byteAt (header' ++ (middle ++ tail')) 0 = Rtp.byteAt (header ++ (middle ++ tail)) 0 := by
    rw [(fields_append twelve' _).1, (fields_append twelve _).1, first]
  have fixed : Rtp.fixedHeaderSize (header' ++ (middle ++ tail')) =
      Rtp.fixedHeaderSize (header ++ (middle ++ tail)) := by
    simp only [Rtp.fixedHeaderSize, Rtp.csrcCount, same]
  have extension : Rtp.extension (header' ++ (middle ++ tail')) =
      Rtp.extension (header ++ (middle ++ tail)) := by
    simp only [Rtp.extension, same]
  rw [← size, declaredHeaderSize, declaredHeaderSize, fixed, extension]
  congr 1
  split
  case isFalse => rfl
  case isTrue extended =>
    rw [declaredHeaderSize, if_pos extended, Rtp.extensionHeaderSize] at size
    obtain ⟨offset, at_⟩ : ∃ offset, Rtp.fixedHeaderSize (header ++ (middle ++ tail)) = 12 + offset :=
      ⟨_, rfl⟩
    rw [at_] at size ⊢
    have left := @readU16_within header' tail' middle (offset + 2) (by omega)
    have right := @readU16_within header tail middle (offset + 2) (by omega)
    rw [twelve', ← Nat.add_assoc] at left
    rw [twelve, ← Nat.add_assoc] at right
    rw [Rtp.headerLength, Rtp.headerLength, left, right]

/-- The handler's own payload type is one of seven bits, and is taken for RTP. -/
structure RtxReceivingHandler.TypesFit (rtc : Rtc) (handler : RtxReceivingHandler) : Prop where
  sevenBits : handler.rtxPayloadType < 128
  notRtcp : ∀ bytes : List Byte, Rtp.headerSize ≤ bytes.length →
    Rtp.payloadType bytes = handler.rtxPayloadType → rtc.isRtcp bytes = false

private theorem seven_bits {type : Byte} (fits : type < 128) : type &&& 0x7f = type := by
  have all : ∀ value : Fin 256, UInt8.ofNat value < 128 → UInt8.ofNat value &&& 0x7f = UInt8.ofNat value := by
    decide +kernel
  simpa only [UInt8.ofNat_toNat] using all ⟨type.toNat, type.toNat_lt⟩ (by simpa using fits)

private theorem cut_packet {header : List Byte} (twelve : header.length = 12) (middle tail : List Byte) :
    (header ++ (middle ++ tail)).take (12 + middle.length) = header ++ middle ∧
      (header ++ (middle ++ tail)).drop (12 + middle.length) = tail := by
  have size : 12 + middle.length = (header ++ middle).length := by simp [twelve]
  rw [← List.append_assoc, size]
  exact ⟨List.take_left, List.drop_left⟩

/-- The retransmission of a primary packet is one, and restores that packet. -/
theorem restore_encapsulate (fits : handler.TypesFit rtc) (primary : IsPrimaryPacket handler packet)
    (sequence : UInt16) (data : message.type ≠ .control)
    (encapsulated : message.bytes = handler.encapsulate sequence packet) :
    IsRtxPacket rtc handler message ∧ handler.restore rtc (some message) =
      some { message with bytes := packet, stream := handler.primarySsrc } := by
  obtain ⟨header, middle, payload, twelve, declared, rfl⟩ := split_packet primary.header
  obtain ⟨_, payloadType, number, ssrc⟩ := fields_append twelve (middle ++ payload)
  obtain ⟨outside, twelve', first, type', ssrc', undone⟩ := relabel_spec handler.rtxPayloadType sequence
    handler.rtxSsrc twelve (middle ++ (bytesU16 (Rtp.seqNumber header) ++ payload))
  generalize Rtp.relabel header handler.rtxPayloadType sequence handler.rtxSsrc = header' at *
  obtain ⟨front, back⟩ := cut_packet twelve middle payload
  have bytes : message.bytes = header' ++ (middle ++ (bytesU16 (Rtp.seqNumber header) ++ payload)) := by
    rw [encapsulated, RtxReceivingHandler.encapsulate, declared, number, front, back, List.append_assoc,
      outside]
  obtain ⟨_, payloadType', number', ssrcs'⟩ := fields_append twelve'
    (middle ++ (bytesU16 (Rtp.seqNumber header) ++ payload))
  have declared' : declaredHeaderSize message.bytes = 12 + middle.length := by
    rw [bytes]
    exact declared_congr twelve twelve' first declared
  have length : message.bytes.length = 12 + middle.length + 2 + payload.length := by
    rw [bytes]
    simp [twelve']
    omega
  have isType : Rtp.payloadType message.bytes = handler.rtxPayloadType := by
    rw [bytes, payloadType', type', seven_bits fits.sevenBits]
  have rtx : IsRtxPacket rtc handler message := by
    refine ⟨?_, isType, ?_, by omega⟩
    · exact (isRtp_some_iff ..).mpr ⟨data, by omega, fits.notRtcp _ (by simp only [Rtp.headerSize]; omega) isType⟩
    · rw [bytes, ssrcs', ssrc']
  refine ⟨rtx, ?_⟩
  have moved : message.bytes.take (12 + middle.length) ++ message.bytes.drop (12 + middle.length + 2) =
      header' ++ (middle ++ payload) := by
    have behind : message.bytes.drop (12 + middle.length + 2) = payload := by
      rw [← List.drop_drop, bytes, (cut_packet twelve' middle _).2]
      rfl
    rw [behind, bytes, (cut_packet twelve' middle _).1, List.append_assoc]
  have original : readU16 message.bytes (12 + middle.length) = Rtp.seqNumber header := by
    rw [bytes, ← List.append_assoc]
    exact readU16_append _ _ _ _ (by simp [twelve'])
  obtain ⟨again, _⟩ := relabel_spec handler.primaryPayloadType (Rtp.seqNumber header) handler.primarySsrc
    twelve' (middle ++ payload)
  have undone' : Rtp.relabel header' handler.primaryPayloadType (Rtp.seqNumber header)
      handler.primarySsrc = header := by
    rw [← primary.payloadType, ← primary.ssrc, payloadType, ssrc]
    exact undone
  have restored : handler.restoreAt message.bytes (12 + middle.length) = header ++ (middle ++ payload) := by
    rw [RtxReceivingHandler.restoreAt, original, moved, ← Rtp.relabel, again, undone']
  rw [restore_of_isRtxPacket rtx, declared', restored]

/-! ## Whole batches -/

/-- What becomes of one message: the primary packet where it is the retransmission of one, and nothing
where it is no retransmission. -/
structure Restores (rtc : Rtc) (handler : RtxReceivingHandler) (before after : MessagePtr) : Prop where
  restored : ∀ message ∈ before, message.type ≠ .control → ∀ packet sequence,
    IsPrimaryPacket handler packet → message.bytes = handler.encapsulate sequence packet →
      IsRtxPacket rtc handler message ∧
        after = some { message with bytes := packet, stream := handler.primarySsrc }
  other : (∀ message ∈ before, ¬ IsRtxPacket rtc handler message) → after = before

/-- The pointer to a retransmission. -/
def pointsToRtx (rtc : Rtc) (handler : RtxReceivingHandler) (pointer : MessagePtr) : Bool :=
  pointer.any fun message => IsRtxPacket rtc handler message

private theorem restore_none_iff {pointer : MessagePtr} :
    handler.restore rtc pointer = none ↔ pointsToRtx rtc handler pointer = false := by
  cases pointer with
  | none => exact ⟨fun _ => rfl, fun _ => rfl⟩
  | some message =>
    simp only [pointsToRtx, Option.any_some, decide_eq_false_iff_not]
    constructor
    · intro none_ rtx
      rw [restore_of_isRtxPacket rtx] at none_
      contradiction
    · exact restore_of_not_isRtxPacket

private theorem restore_counted (rtc : Rtc) (handler : RtxReceivingHandler) (count : ℕ) (pointer : MessagePtr) :
    RtxReceivingHandler.restore rtc { handler with retransmittedPackets := count } pointer =
      handler.restore rtc pointer := by
  cases pointer <;> rfl

/-- What is a retransmission does not depend on the counter. -/
theorem pointsToRtx_counted (rtc : Rtc) (handler : RtxReceivingHandler) (n : ℕ) :
    pointsToRtx rtc { handler with retransmittedPackets := n } = pointsToRtx rtc handler := by
  funext pointer
  rw [Bool.eq_iff_iff, ← not_iff_not, Bool.not_eq_true, Bool.not_eq_true, ← restore_none_iff, ← restore_none_iff,
    restore_counted]

/-- The loop restores each message on its own and counts those it restores. -/
theorem incoming_eq (rtc : Rtc) (handler : RtxReceivingHandler) (messages : List MessagePtr) :
    handler.incoming rtc messages =
      ({ handler with
          retransmittedPackets := handler.retransmittedPackets + messages.countP (pointsToRtx rtc handler) },
        messages.map fun pointer => (handler.restore rtc pointer).or pointer) := by
  induction messages generalizing handler with
  | nil => rfl
  | cons pointer messages ih =>
    rw [RtxReceivingHandler.incoming]
    cases restored : handler.restore rtc pointer with
    | none =>
      have other : pointsToRtx rtc handler pointer = false := restore_none_iff.mp restored
      simp [ih, restored, other]
    | some result =>
      have rtx : pointsToRtx rtc handler pointer = true := by
        rw [← Bool.not_eq_false, ← restore_none_iff, restored]
        simp
      simp only [ih, restore_counted, pointsToRtx_counted, restored, rtx, List.countP_cons_of_pos, List.map_cons,
        Option.some_or, Nat.add_assoc, Nat.add_comm 1]

/-- Every message of a batch is restored or left alone, and as many are counted as were retransmissions. -/
theorem incoming_restores (rtc : Rtc) (handler : RtxReceivingHandler) (fits : handler.TypesFit rtc)
    (messages : List MessagePtr) :
    List.Forall₂ (Restores rtc handler) messages (handler.incoming rtc messages).2 ∧
      (handler.incoming rtc messages).1.retransmittedPackets =
        handler.retransmittedPackets + messages.countP (pointsToRtx rtc handler) := by
  rw [incoming_eq]
  refine ⟨List.forall₂_map_right_iff.mpr (List.forall₂_same.mpr fun pointer _ => ⟨?_, ?_⟩), rfl⟩
  · rintro message member data packet sequence primary encapsulated
    obtain rfl := Option.mem_def.mp member
    obtain ⟨rtx, restored⟩ := restore_encapsulate fits primary sequence data encapsulated
    exact ⟨rtx, by rw [restored, Option.some_or]⟩
  · intro others
    have none_ : handler.restore rtc pointer = none := by
      cases pointer with
      | none => rfl
      | some message => exact restore_of_not_isRtxPacket (others message rfl)
    rw [none_, Option.none_or]

theorem video_typesFit : RtxReceivingHandler.video.TypesFit .rfc5761 := by
  refine ⟨by decide, fun bytes _ type => ?_⟩
  have second : bytes.getD 1 0 &&& 0x7f = 103 := type
  simp only [Rtc.rfc5761, second]
  rw [Bool.and_eq_false_iff]
  exact .inr (by decide)

/-- A marked packet with a CSRC and a header extension, sequence number 65535. -/
private def extendedPacket : List Byte :=
  [0x91, 0xe6] ++ (bytesU16 65535 ++ (bytesU32 3000 ++ (bytesU32 0x12345678 ++ (bytesU32 7 ++
    ([0xbe, 0xde, 0, 1, 0x10, 0xaa, 0, 0] ++ [1, 2, 3])))))

/-- Its retransmission between a packet of the primary stream, a null pointer and a truncated one. -/
private def mixedBatch : List MessagePtr :=
  [some (Rtp.packet 4 false [9]),
    some { bytes := RtxReceivingHandler.video.encapsulate 17 extendedPacket, stream := 0x12345679 },
    none,
    some { bytes := (RtxReceivingHandler.video.encapsulate 18 extendedPacket).take 25 }]

theorem incoming_restores_mixed :
    (RtxReceivingHandler.video.incoming .rfc5761 mixedBatch).2 =
      [some (Rtp.packet 4 false [9]), some { bytes := extendedPacket, stream := 0x12345678 }, none,
        some { bytes := (RtxReceivingHandler.video.encapsulate 18 extendedPacket).take 25 }] ∧
    List.Forall₂ (Restores .rfc5761 .video) mixedBatch
      (RtxReceivingHandler.video.incoming .rfc5761 mixedBatch).2 ∧
    (RtxReceivingHandler.video.incoming .rfc5761 mixedBatch).1.retransmittedPackets =
      0 + mixedBatch.countP (pointsToRtx .rfc5761 .video) := by
  refine ⟨by decide +kernel, ?_⟩
  exact incoming_restores .rfc5761 .video video_typesFit mixedBatch

end WeakNetVideo
