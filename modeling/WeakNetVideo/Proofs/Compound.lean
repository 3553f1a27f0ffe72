import Mathlib.Data.List.GetD
import WeakNetVideo.Model.Sender

/-! # Compound RTCP messages

A packet is read from its own bytes only. The sender's loop over a compound message of well-formed
packets therefore observes each of them as if it had come alone.
-/

namespace WeakNetVideo

open BigEndian

/-- A packet with a whole header that announces the size it has. -/
structure WellFormedRtcp (packet : List Byte) : Prop where
  header : Rtcp.headerSize ≤ packet.length
  size : Rtcp.lengthInBytes packet 0 = packet.length

instance (packet : List Byte) : Decidable (WellFormedRtcp packet) :=
  decidable_of_iff (Rtcp.headerSize ≤ packet.length ∧ Rtcp.lengthInBytes packet 0 = packet.length)
    ⟨fun ⟨header, size⟩ => ⟨header, size⟩, fun ⟨header, size⟩ => ⟨header, size⟩⟩

/-- The control message of some packets. -/
def compound (packets : List (List Byte)) : Message where
  type := .control
  bytes := packets.flatten

variable {before after packet : List Byte} {feedback : Feedback} {packets : List (List Byte)}

/-! ## One packet -/

private theorem byteAt_within {k : ℕ} (inside : k < packet.length) :
    Rtp.byteAt (before ++ (packet ++ after)) (before.length + k) = Rtp.byteAt packet k := by
  rw [Rtp.byteAt, Rtp.byteAt, List.getD_append_right _ _ _ _ (Nat.le_add_right ..), Nat.add_sub_cancel_left,
    List.getD_append _ _ _ _ inside]

theorem lengthInBytes_within (whole : Rtcp.headerSize ≤ packet.length) :
    Rtcp.lengthInBytes (before ++ (packet ++ after)) before.length = Rtcp.lengthInBytes packet 0 := by
  simp only [Rtcp.headerSize] at whole
  rw [Rtcp.lengthInBytes, Rtcp.length, readU16_within before after (by omega)]
  rfl

theorem observePacket_within (good : WellFormedRtcp packet) :
    feedback.observePacket (before ++ (packet ++ after)) before.length = feedback.observePacket packet 0 := by
  obtain ⟨header, size⟩ := good
  simp only [Rtcp.headerSize] at header
  have length : Rtcp.length (before ++ (packet ++ after)) before.length = Rtcp.length packet 0 := by
    rw [Rtcp.length, readU16_within before after (by omega)]
    rfl
  have type : Rtcp.payloadType (before ++ (packet ++ after)) before.length = Rtcp.payloadType packet 0 :=
    byteAt_within (by omega)
  have format : Rtcp.reportCount (before ++ (packet ++ after)) before.length = Rtcp.reportCount packet 0 :=
    congrArg (fun byte : Byte => (byte &&& 0x1f).toNat) (byteAt_within (k := 0) (by omega))
  have whole := @lengthInBytes_within before after packet header
  have words : (1 + Rtcp.length packet 0) * 4 = packet.length := size
  have parts : nackParts (before ++ (packet ++ after)) before.length = nackParts packet 0 := by
    rw [nackParts, nackParts, length]
    apply List.map_congr_left
    intro i inside
    rw [List.mem_range] at inside
    have first : before.length + 12 + 4 * i = before.length + (12 + 4 * i) := by omega
    have second : before.length + 12 + 4 * i + 2 = before.length + (12 + 4 * i + 2) := by omega
    rw [second, first, readU16_within before after (by omega), readU16_within before after (by omega),
      Nat.zero_add]
  have name : (Rtcp.payloadType packet 0 = rtcpApp ∧ Rtcp.lengthInBytes packet 0 ≥ keyframeAckSize ∧
      readU32 (before ++ (packet ++ after)) (before.length + 8) = keyframeAckName) ↔
      (Rtcp.payloadType packet 0 = rtcpApp ∧ Rtcp.lengthInBytes packet 0 ≥ keyframeAckSize ∧
        readU32 packet (0 + 8) = keyframeAckName) := by
    apply and_congr_right
    intro _
    apply and_congr_right
    intro large
    rw [size, keyframeAckSize] at large
    rw [readU32_within before after (by omega), Nat.zero_add]
  simp only [Feedback.observePacket, type, format, whole, parts, name]

/-! ## All packets -/

/-- The loop over well-formed packets observes each of them. -/
theorem observePackets_flatten (good : ∀ packet ∈ packets, WellFormedRtcp packet) {fuel : ℕ}
    (turns : packets.length ≤ fuel) (before : List Byte) :
    Feedback.observePackets (before ++ packets.flatten) fuel before.length feedback =
      packets.foldl (fun feedback packet => feedback.observePacket packet 0) feedback := by
  induction packets generalizing fuel before feedback with
  | nil =>
    cases fuel with
    | zero => rfl
    | succ fuel =>
      rw [Feedback.observePackets, if_neg (by simp [Rtcp.headerSize])]
      rfl
  | cons packet packets ih =>
    obtain ⟨fuel, rfl⟩ : ∃ left, fuel = left + 1 := ⟨fuel - 1, by simp at turns; omega⟩
    have own := good packet List.mem_cons_self
    have size := (@lengthInBytes_within before packets.flatten packet own.header).trans own.size
    have header := own.header
    have total : (before ++ (packet ++ packets.flatten)).length =
        before.length + (packet.length + packets.flatten.length) := by simp
    have rest := @ih (feedback.observePacket packet 0)
      (fun other member => good other (List.mem_cons_of_mem _ member)) fuel (by simpa using turns)
      (before ++ packet)
    rw [List.length_append, List.append_assoc] at rest
    rw [List.flatten_cons, Feedback.observePackets, if_pos (by rw [total]; omega)]
    simp only [size]
    rw [if_neg (by rw [total]; omega), observePacket_within own, rest]
    rfl

private theorem length_le_flatten (good : ∀ packet ∈ packets, WellFormedRtcp packet) :
    4 * packets.length ≤ packets.flatten.length := by
  induction packets with
  | nil => exact Nat.le_refl 0
  | cons packet packets ih =>
    have own := (good packet List.mem_cons_self).header
    have rest := ih fun other member => good other (List.mem_cons_of_mem _ member)
    simp only [List.length_cons, List.flatten_cons, List.length_append, Rtcp.headerSize] at own ⊢
    omega

theorem observeMessage_compound (good : ∀ packet ∈ packets, WellFormedRtcp packet) :
    feedback.observeMessage (some (compound packets)) =
      packets.foldl (fun feedback packet => feedback.observePacket packet 0) feedback := by
  have size := length_le_flatten good
  have whole := @observePackets_flatten feedback packets good packets.flatten.length (by omega) []
  rw [List.nil_append] at whole
  cases packets with
  | nil => rfl
  | cons packet packets =>
    have long : ¬ (packet :: packets).flatten.length < Rtcp.headerSize := by
      simp only [List.length_cons, Rtcp.headerSize] at size ⊢
      omega
    simp only [Feedback.observeMessage, compound, long, or_false, ne_eq, not_true_eq_false, if_false]
    exact whole

/-! ## What packets ask for -/

/-- The packets that one RTCP packet asks to be sent again. -/
def askedFor (packet : List Byte) : ℕ := (Feedback.observePacket {} packet 0).retransmittedPackets

private theorem observePacket_retransmitted (feedback : Feedback) (bytes : List Byte) (offset : ℕ) :
    (feedback.observePacket bytes offset).retransmittedPackets = feedback.retransmittedPackets +
      (Feedback.observePacket {} bytes offset).retransmittedPackets := by
  simp only [Feedback.observePacket]
  split_ifs <;> simp

private theorem observePackets_retransmitted (feedback : Feedback) (bytes : List Byte) (fuel offset : ℕ) :
    (feedback.observePackets bytes fuel offset).retransmittedPackets = feedback.retransmittedPackets +
      (Feedback.observePackets bytes fuel offset {}).retransmittedPackets := by
  induction fuel generalizing feedback offset with
  | zero => rfl
  | succ fuel ih =>
    simp only [Feedback.observePackets]
    split_ifs
    · rfl
    · rw [ih, observePacket_retransmitted, ih (Feedback.observePacket {} bytes offset), Nat.add_assoc]
    · rfl

private theorem observeMessage_retransmitted (feedback : Feedback) (message : MessagePtr) :
    (feedback.observeMessage message).retransmittedPackets = feedback.retransmittedPackets +
      (Feedback.observeMessage {} message).retransmittedPackets := by
  cases message with
  | none => rfl
  | some message =>
    simp only [Feedback.observeMessage]
    split_ifs
    · rfl
    · exact observePackets_retransmitted ..

/-- Every message of a batch counts on its own. -/
theorem observeMessages_retransmitted (feedback : Feedback) (messages : List MessagePtr) :
    (messages.foldl Feedback.observeMessage feedback).retransmittedPackets =
      feedback.retransmittedPackets +
        (messages.map fun message => (Feedback.observeMessage {} message).retransmittedPackets).sum := by
  induction messages generalizing feedback with
  | nil => rfl
  | cons message messages ih =>
    rw [List.foldl_cons, ih, observeMessage_retransmitted, List.map_cons, List.sum_cons, Nat.add_assoc]

/-- Every packet of a compound message counts on its own. -/
theorem compound_retransmitted (good : ∀ packet ∈ packets, WellFormedRtcp packet) :
    (Feedback.observeMessage {} (some (compound packets))).retransmittedPackets =
      (packets.map askedFor).sum := by
  have each (feedback : Feedback) : (packets.foldl (fun feedback packet => feedback.observePacket packet 0)
      feedback).retransmittedPackets = feedback.retransmittedPackets + (packets.map askedFor).sum := by
    clear good
    induction packets generalizing feedback with
    | nil => rfl
    | cons packet packets ih =>
      rw [List.foldl_cons, ih, observePacket_retransmitted, List.map_cons, List.sum_cons, askedFor,
        Nat.add_assoc]
  rw [observeMessage_compound good, each]
  exact Nat.zero_add _

end WeakNetVideo
