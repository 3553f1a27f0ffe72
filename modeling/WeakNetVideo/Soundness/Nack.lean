import WeakNetVideo.Proofs.Compound
import WeakNetVideo.Proofs.NackGroups

/-! # A NACK names what is missing

For every incomplete frame the groups on the wire spell the empty slots, once each and in index order,
also where the sequence numbers wrap. The sender counts as many packets to send again, whatever else the
compound message and the batch hold.
-/

namespace WeakNetVideo

open BigEndian

/-- The indices of the empty slots. -/
def missingIndices (frame : FrameAssembly) : List ℕ :=
  (List.range frame.packetCount.toNat).filter fun i => (frame.packets.getD i none).isNone

variable {frame : FrameAssembly} {groups : List NackGroup}

theorem grouped_frame (frame : FrameAssembly) :
    Grouped frame.firstSequence (missingIndices frame) (nackGroups (Receiver.missingSequences frame)) := by
  apply grouped_nackGroups
  · exact List.pairwise_lt_range.filter _
  · intro i member
    have inside := List.mem_range.mp (List.mem_filter.mp member).1
    exact Nat.lt_trans inside frame.packetCount.toNat_lt

/-! ## The message -/

/-- A group on the wire. -/
def NackGroup.wire (group : NackGroup) : List Byte := bytesU16 group.pid ++ bytesU16 group.blp

/-- The group that is read at a place. -/
def readGroup (bytes : List Byte) (place : ℕ) : NackGroup := ⟨readU16 bytes place, readU16 bytes (place + 2)⟩

theorem readGroup_append (before after : List Byte) (group : NackGroup) :
    readGroup (before ++ (group.wire ++ after)) before.length = group := by
  have pid := readU16_append before (bytesU16 group.blp ++ after) group.pid _ rfl
  have blp := readU16_append (before ++ bytesU16 group.pid) after group.blp (before.length + 2) (by simp)
  rw [List.append_assoc] at blp
  rw [readGroup, NackGroup.wire, List.append_assoc, pid, blp]

/-- The groups are read behind any bytes as they were written. -/
theorem readGroup_flatMap (before : List Byte) (groups : List NackGroup) :
    ((List.range groups.length).map fun i =>
      readGroup (before ++ groups.flatMap NackGroup.wire) (before.length + 4 * i)) = groups := by
  induction groups generalizing before with
  | nil => rfl
  | cons group groups ih =>
    have size : (before ++ group.wire).length = before.length + 4 := by simp [NackGroup.wire]
    have rest := ih (before ++ group.wire)
    rw [List.length_cons, List.range_succ_eq_map, List.map_cons, List.map_map, List.flatMap_cons]
    simp only [Nat.mul_zero, Nat.add_zero, readGroup_append, List.cons.injEq, true_and]
    rw [size, List.append_assoc] at rest
    conv_rhs => rw [← rest]
    apply List.map_congr_left
    intro i _
    rw [Function.comp_apply, Nat.mul_succ, Nat.add_comm (4 * i), Nat.add_assoc]

private theorem length_nackMessage (groups : List NackGroup) :
    (nackMessage groups).bytes.length = 12 + 4 * groups.length := by
  simp [nackMessage, Rtcp.header, List.length_flatMap]
  omega

private theorem length_word (fits : groups.length ≤ 3856) :
    Rtcp.length (nackMessage groups).bytes 0 = 2 + groups.length := by
  have word : Rtcp.length (nackMessage groups).bytes 0 = (UInt16.ofNat (2 + groups.length)).toNat :=
    congrArg UInt16.toNat (readU16_append [0x80 ||| 1, rtcpTransportFeedback] _ _ 2 rfl)
  rw [word, UInt16.toNat_ofNat', Nat.mod_eq_of_lt (by omega)]

/-- The message is well formed, and the groups are read from it. -/
theorem nackMessage_spec (fits : groups.length ≤ 3856) :
    WellFormedRtcp (nackMessage groups).bytes ∧ nackParts (nackMessage groups).bytes 0 = groups := by
  have length := length_nackMessage groups
  have word := length_word fits
  refine ⟨⟨?_, ?_⟩, ?_⟩
  · rw [length, Rtcp.headerSize]
    omega
  · rw [Rtcp.lengthInBytes, length, word]
    omega
  · have read := readGroup_flatMap (Rtcp.header 1 rtcpTransportFeedback (UInt16.ofNat (2 + groups.length)) ++
      (bytesU32 0x12345678 ++ bytesU32 0x12345678)) groups
    rw [nackParts, word, Nat.add_sub_cancel_left]
    conv_rhs => rw [← read]
    simp only [List.append_assoc]
    apply List.map_congr_left
    intro i _
    rfl

/-- The sender counts the packets of the groups. -/
private theorem askedFor_nackMessage (fits : groups.length ≤ 3856) :
    askedFor (nackMessage groups).bytes = (groups.flatMap NackGroup.sequenceNumbers).length := by
  obtain ⟨⟨_, size⟩, parts⟩ := nackMessage_spec fits
  have long : Rtcp.lengthInBytes (nackMessage groups).bytes 0 ≥ 12 := by
    rw [size, length_nackMessage]
    omega
  have format : Rtcp.reportCount (nackMessage groups).bytes 0 = nackFeedbackFormat :=
    show ((0x80 ||| 1 : Byte) &&& 0x1f).toNat = 1 by decide
  have type : Rtcp.payloadType (nackMessage groups).bytes 0 = rtcpTransportFeedback := rfl
  rw [askedFor, Feedback.observePacket, if_pos ⟨type, format, long⟩, parts]
  exact Nat.zero_add _

/-! ## Frames -/

private theorem missingSequences_eq (frame : FrameAssembly) : Receiver.missingSequences frame =
    (missingIndices frame).map fun i => frame.firstSequence + UInt16.ofNat i := rfl

/-- What the sender has counted after a batch with one compound message in it. -/
private theorem retransmitted_compound {packets : List (List Byte)}
    (good : ∀ packet ∈ packets, WellFormedRtcp packet) (s : Sender) (earlier later : List MessagePtr) :
    (s.senderIncoming (earlier ++ some (compound packets) :: later)).1.retransmittedPackets =
      (s.senderIncoming (earlier ++ later)).1.retransmittedPackets + (packets.map askedFor).sum := by
  simp only [Sender.senderIncoming, observeMessages_retransmitted, List.map_append, List.map_cons,
    List.sum_append, List.sum_cons, compound_retransmitted good]
  omega

/-- The NACK of an incomplete frame spells the missing packets in index order, and in any batch, between
any well-formed packets of a compound message, it adds their number to what the sender retransmits. -/
theorem nack_names_missing (frame : FrameAssembly) (incomplete : missingIndices frame ≠ []) :
    ∃ nack, Receiver.sendNack frame = some nack ∧
      (nackParts nack.bytes 0).flatMap NackGroup.sequenceNumbers =
        (missingIndices frame).map (fun i => frame.firstSequence + UInt16.ofNat i) ∧
      ∀ (s : Sender) (earlier later : List MessagePtr) (before after : List (List Byte)),
        (∀ packet ∈ before ++ after, WellFormedRtcp packet) →
        (s.senderIncoming (earlier ++ some (compound (before ++ nack.bytes :: after)) ::
            later)).1.retransmittedPackets =
          (s.senderIncoming (earlier ++ some (compound (before ++ after)) ::
            later)).1.retransmittedPackets + (missingIndices frame).length := by
  have grouped := grouped_frame frame
  have fits := grouped.length_le fun i member =>
    Nat.lt_trans (List.mem_range.mp (List.mem_filter.mp member).1) frame.packetCount.toNat_lt
  obtain ⟨wellFormed, parts⟩ := nackMessage_spec fits
  refine ⟨nackMessage (nackGroups (Receiver.missingSequences frame)), ?_, ?_, ?_⟩
  · rw [Receiver.sendNack, missingSequences_eq]
    simp [incomplete]
  · rw [parts, grouped.spell]
  · intro s earlier later before after good
    have all : ∀ packet ∈ before ++ (nackMessage (nackGroups (Receiver.missingSequences frame))).bytes :: after,
        WellFormedRtcp packet := by
      intro packet member
      rcases List.mem_append.mp member with first | rest
      · exact good packet (List.mem_append_left _ first)
      · rcases List.mem_cons.mp rest with rfl | last
        · exact wellFormed
        · exact good packet (List.mem_append_right _ last)
    rw [retransmitted_compound all, retransmitted_compound good, List.map_append, List.map_append,
      List.map_cons, List.sum_append, List.sum_append, List.sum_cons, askedFor_nackMessage fits,
      grouped.spell, List.length_map]
    omega

/-- A frame of twenty packets around the wrap, with the first, the third and the last two missing. -/
private def wrapping : FrameAssembly where
  packetCount := 20
  firstSequence := 65530
  packets := [none, some ⟨.binary, [], 0⟩, none] ++ List.replicate 15 (some ⟨.binary, [], 0⟩) ++ [none, none]

/-- Two groups name them. -/
theorem nack_names_missing_wrapping :
    (∃ nack, Receiver.sendNack wrapping = some nack ∧
      (nackParts nack.bytes 0).flatMap NackGroup.sequenceNumbers =
        (missingIndices wrapping).map (fun i => wrapping.firstSequence + UInt16.ofNat i) ∧
      ∀ (s : Sender) (earlier later : List MessagePtr) (before after : List (List Byte)),
        (∀ packet ∈ before ++ after, WellFormedRtcp packet) →
        (s.senderIncoming (earlier ++ some (compound (before ++ nack.bytes :: after)) ::
            later)).1.retransmittedPackets =
          (s.senderIncoming (earlier ++ some (compound (before ++ after)) ::
            later)).1.retransmittedPackets + (missingIndices wrapping).length) ∧
    nackGroups (Receiver.missingSequences wrapping) = [⟨65530, 2⟩, ⟨12, 1⟩] ∧
    missingIndices wrapping = [0, 2, 18, 19] :=
  ⟨nack_names_missing wrapping (by decide +kernel), by decide +kernel, by decide +kernel⟩

end WeakNetVideo
