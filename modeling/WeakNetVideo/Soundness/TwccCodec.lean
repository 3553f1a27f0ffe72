import Mathlib.Data.Bool.Count
import WeakNetVideo.Proofs.StatusChunks

/-! # Encoder and decoder of the transport feedback agree

Whatever waits for a feedback, the message that is sent is read back as one packet of its own size, with
the numbers it was built from, and as many packets are called lost as do not wait.
-/

namespace WeakNetVideo

open BigEndian

variable {r : TwccReceiver} {atUs : ℤ} {feedback : TwccFeedback}

/-- What a feedback that is sent was made from. -/
structure MadeFrom (feedback : TwccFeedback) (r : TwccReceiver) : Prop where
  base : (r.pending.head?).map TwccSample.sequence = some feedback.baseSequence
  positive : 0 < feedback.packetCount.toNat
  most : feedback.packetCount.toNat ≤ 4096
  reference : feedback.referenceTime.toNat < 256 ^ 3
  chunks : feedback.chunks = (RunLength.runs maxStatusRun
    (receivedStatuses (r.pending.map TwccSample.sequence) feedback.baseSequence feedback.packetCount)).map
      statusChunk
  received : feedback.receivedCount = (receivedStatuses (r.pending.map TwccSample.sequence)
    feedback.baseSequence feedback.packetCount).count true

theorem madeFrom_of_sent (sent : (r.maybeSendTwccFeedback atUs).2 = some feedback) :
    MadeFrom feedback r := by
  rw [TwccReceiver.maybeSendTwccFeedback] at sent
  split at sent
  case h_1 => contradiction
  case h_2 front rest queue =>
    dsimp only at sent
    split_ifs at sent with early wide
    obtain rfl := Option.some.inj sent
    obtain ⟨some_, fits⟩ := not_or.mp wide
    refine ⟨by rw [queue]; rfl, ?_, ?_, ?_, rfl, rfl⟩
    · exact Nat.pos_of_ne_zero fun none => some_ (UInt16.toNat_inj.mp none)
    · exact UInt16.le_iff_toNat_le.mp (UInt16.not_lt.mp fits)
    · rw [UInt32.toNat_ofNat']
      have := Int.emod_lt_of_pos ((front.atUs.tdiv 1000).tdiv 64) (b := 0x1000000) (by decide)
      omega

/-! ## The layout of the message -/

/-- The size of the message in words of four bytes. -/
def TwccFeedback.words (feedback : TwccFeedback) : ℕ :=
  (20 + feedback.chunks.length * 2 + feedback.receivedCount + 3) / 4

/-- The message with its fields apart. -/
theorem message_bytes (feedback : TwccFeedback) : feedback.message.bytes =
    [0x8f, 0xcd] ++ (bytesU16 (UInt16.ofNat (feedback.words - 1)) ++ (List.replicate 8 0 ++
      (bytesU16 feedback.baseSequence ++ (bytesU16 feedback.packetCount ++
        (encode 3 feedback.referenceTime.toNat ++ ([feedback.feedbackCount] ++
          (feedback.chunks.flatMap bytesU16 ++
            List.replicate (feedback.words * 4 - 20 - feedback.chunks.length * 2) 0))))))) := by
  have words : (20 + feedback.chunks.length * 2 + feedback.receivedCount + 3) / 4 * 4 / 4 =
    feedback.words := Nat.mul_div_cancel _ (by decide)
  simp only [TwccFeedback.message, words]
  rfl

theorem length_chunks (chunks : List UInt16) : (chunks.flatMap bytesU16).length = 2 * chunks.length := by
  simp [List.length_flatMap, Nat.mul_comm]

theorem length_message (feedback : TwccFeedback) : feedback.message.bytes.length = feedback.words * 4 := by
  rw [message_bytes]
  simp only [List.length_append, length_bytesU16, List.length_replicate, length_encode, length_chunks,
    List.length_cons, List.length_nil]
  simp only [TwccFeedback.words]
  omega

private theorem length_receivedStatuses (received : List UInt16) (base count : UInt16) :
    (receivedStatuses received base count).length = count.toNat := by
  simp [receivedStatuses]

/-- Every chunk is for a packet at least, so that there are no more of them than packets. -/
theorem MadeFrom.chunks_le (made : MadeFrom feedback r) :
    feedback.chunks.length ≤ feedback.packetCount.toNat := by
  have spelled := RunLength.length_le_expand (@RunLength.positive_of_mem _ _ maxStatusRun
    (receivedStatuses (r.pending.map TwccSample.sequence) feedback.baseSequence feedback.packetCount))
  rw [RunLength.expand_runs, length_receivedStatuses] at spelled
  rwa [made.chunks, List.length_map]

theorem MadeFrom.received_le (made : MadeFrom feedback r) :
    feedback.receivedCount ≤ feedback.packetCount.toNat := by
  rw [made.received]
  exact Nat.le_trans List.count_le_length (Nat.le_of_eq (length_receivedStatuses ..))

/-- The length of the message fits the header. -/
theorem MadeFrom.words_bounds (made : MadeFrom feedback r) : 5 ≤ feedback.words ∧ feedback.words < 65536 := by
  have most := made.most
  have chunks := made.chunks_le
  have received := made.received_le
  simp only [TwccFeedback.words]
  omega

/-- The fields are read where they were written. -/
theorem read_message (feedback : TwccFeedback) (behind : List Byte) :
    let memory := feedback.message.bytes ++ behind
    Rtcp.reportCount memory 0 = twccFeedbackFormat ∧ Rtcp.payloadType memory 0 = rtcpTransportFeedback ∧
    Rtcp.length memory 0 = (UInt16.ofNat (feedback.words - 1)).toNat ∧
    readU16 memory 12 = feedback.baseSequence ∧ readU16 memory 14 = feedback.packetCount ∧
    valueAt 3 memory 16 = feedback.referenceTime.toNat % 256 ^ 3 := by
  intro memory
  have shape : memory = _ := congrArg (· ++ behind) (message_bytes feedback)
  simp only [List.append_assoc] at shape
  rw [shape]
  refine ⟨show ((0x8f : Byte) &&& 0x1f).toNat = 15 by decide, rfl, ?_, ?_, ?_, ?_⟩
  · exact congrArg UInt16.toNat (readU16_append [0x8f, 0xcd] _ _ 2 rfl)
  · exact readU16_append ([0x8f, 0xcd] ++ bytesU16 _ ++ List.replicate 8 0) _ _ 12 rfl
  · exact readU16_append ([0x8f, 0xcd] ++ bytesU16 _ ++ List.replicate 8 0 ++ bytesU16 _) _ _ 14 rfl
  · exact valueAt_append ([0x8f, 0xcd] ++ bytesU16 _ ++ List.replicate 8 0 ++ bytesU16 _ ++ bytesU16 _) _ 3 _ rfl

/-- The chunks stand behind twenty bytes. -/
theorem chunks_message (feedback : TwccFeedback) (behind : List Byte) : ∃ before after,
    before.length = 20 ∧
      feedback.message.bytes ++ behind = before ++ (feedback.chunks.flatMap bytesU16 ++ after) := by
  refine ⟨[0x8f, 0xcd] ++ bytesU16 (UInt16.ofNat (feedback.words - 1)) ++ List.replicate 8 0 ++
    bytesU16 feedback.baseSequence ++ bytesU16 feedback.packetCount ++
    encode 3 feedback.referenceTime.toNat ++ [feedback.feedbackCount],
    List.replicate (feedback.words * 4 - 20 - feedback.chunks.length * 2) 0 ++ behind, rfl, ?_⟩
  rw [message_bytes]
  simp only [List.append_assoc]

/-! ## What is read -/

/-- The packets between the first and the last of a feedback that do not wait at the receiver. -/
def missingFrom (feedback : TwccFeedback) (r : TwccReceiver) : ℕ :=
  (List.range feedback.packetCount.toNat).countP fun k =>
    feedback.baseSequence + UInt16.ofNat k ∉ r.pending.map TwccSample.sequence

private theorem count_false (feedback : TwccFeedback) (r : TwccReceiver) :
    (receivedStatuses (r.pending.map TwccSample.sequence) feedback.baseSequence
      feedback.packetCount).count false = missingFrom feedback r := by
  rw [receivedStatuses, List.count, List.countP_map, missingFrom]
  apply List.countP_congr
  intro k _
  simp

/-- The chunks are counted up to the announced packets. -/
theorem observeChunks_message (made : MadeFrom feedback r) (behind : List Byte) :
    let parse := observeChunks (feedback.message.bytes ++ behind) ⟨0, feedback.words * 4⟩
      feedback.packetCount (feedback.words * 4) {}
    parse.lostPackets = UInt32.ofNat (missingFrom feedback r) ∧
      parse.receivedPackets + parse.lostPackets = feedback.packetCount.toUInt32 := by
  obtain ⟨before, after, twenty, shape⟩ := chunks_message feedback behind
  have size : 20 + 2 * feedback.chunks.length ≤ feedback.words * 4 := by
    simp only [TwccFeedback.words]
    omega
  have turns : feedback.chunks.length ≤ feedback.words * 4 := by omega
  rw [made.chunks, List.length_map] at size turns
  rw [shape, made.chunks]
  obtain ⟨lost, received⟩ := @observeChunks_runs ⟨0, feedback.words * 4⟩ feedback.packetCount _ after rfl
    (fun run member => ⟨RunLength.positive_of_mem _ run member, RunLength.le_limit (by decide) _ run member⟩)
    _ turns before {} twenty.symm size
    (by rw [RunLength.expand_runs, length_receivedStatuses]; exact Nat.zero_add _)
  rw [RunLength.expand_runs] at lost received
  refine ⟨?_, ?_⟩
  · rw [lost, count_false, UInt32.zero_add]
  · rw [lost, received, UInt32.zero_add, UInt32.zero_add, ← UInt32.ofNat_add, List.count_true_add_count_false,
      length_receivedStatuses]
    exact UInt32.toNat_inj.mp (by simp)

/-- The message is one packet of its own size. -/
theorem observeRtcpPacket_message (structs : RtcpStructs) (made : MadeFrom feedback r)
    (behind : List Byte) :
    observeRtcpPacket structs (feedback.message.bytes ++ behind) (feedback.words * 4) =
      observeTwccFeedback (feedback.message.bytes ++ behind) ⟨0, feedback.words * 4⟩ := by
  obtain ⟨lower, upper⟩ := made.words_bounds
  obtain ⟨format, type, length, _⟩ := read_message feedback behind
  have size : Rtcp.lengthInBytes (feedback.message.bytes ++ behind) 0 = feedback.words * 4 := by
    rw [Rtcp.lengthInBytes, length, UInt16.toNat_ofNat', Nat.mod_eq_of_lt (by omega)]
    omega
  have nothing (fuel : ℕ) : observeFrom structs (feedback.message.bytes ++ behind) (feedback.words * 4)
      fuel (0 + feedback.words * 4) = [] := by
    cases fuel with
    | zero => rfl
    | succ fuel => rw [observeFrom, if_neg (by simp only [Rtcp.headerSize]; omega)]
  obtain ⟨fuel, turns⟩ : ∃ fuel, feedback.words * 4 = fuel + 1 := ⟨feedback.words * 4 - 1, by omega⟩
  rw [observeRtcpPacket, turns, observeFrom, ← turns, if_pos (by simp only [Rtcp.headerSize]; omega)]
  simp only [size]
  rw [if_neg (by simp only [Rtcp.headerSize]; omega), nothing, List.append_nil]
  simp only [observePacket, format, type, and_self, if_true]
  rfl

/-- The message of whatever feedback is sent, in front of any memory, is read as one packet of its own
size. The estimator hears of the base, the count and the reference time it was built from, and of as many
lost packets as were not waiting. -/
theorem observe_sent_feedback (structs : RtcpStructs) (behind : List Byte)
    (sent : (r.maybeSendTwccFeedback atUs).2 = some feedback) :
    let bytes := feedback.message.bytes
    (observeRtcpPacket structs (bytes ++ behind) bytes.length).map
        (fun observation => (observation.packet, observation.update)) =
      [(⟨0, bytes.length⟩,
        .twccFeedback feedback.baseSequence feedback.packetCount feedback.referenceTime),
       (⟨0, bytes.length⟩,
        .transportLossReport feedback.packetCount.toUInt32 (UInt32.ofNat (missingFrom feedback r)))] := by
  have made := madeFrom_of_sent sent
  obtain ⟨lower, upper⟩ := made.words_bounds
  obtain ⟨_, _, _, base, count, reference⟩ := read_message feedback behind
  obtain ⟨lost, expected⟩ := observeChunks_message made behind
  have some_ : feedback.packetCount.toUInt32 > 0 := by
    rw [gt_iff_lt, UInt32.lt_iff_toNat_lt, UInt16.toNat_toUInt32]
    exact made.positive
  intro bytes
  rw [show bytes.length = feedback.words * 4 from length_message feedback,
    observeRtcpPacket_message structs made behind, observeTwccFeedback, if_neg (by dsimp only; omega)]
  simp only [Nat.zero_add, base, count, reference, Nat.mod_eq_of_lt made.reference, UInt32.ofNat_toNat,
    expected, if_pos some_, List.map_cons, List.map_nil]
  rw [lost]

/-- Two packets around the wrap of the stamped counter, with two lost between them. -/
private def aroundWrap : TwccReceiver where
  pending := [⟨65534, 250000⟩, ⟨1, 260000⟩]

private def aroundWrapFeedback : TwccFeedback where
  baseSequence := 65534
  packetCount := 4
  referenceTime := 3
  feedbackCount := 0
  chunks := [0x2001, 0x0002, 0x2001]
  receivedCount := 2

theorem observe_sent_feedback_around_wrap : missingFrom aroundWrapFeedback aroundWrap = 2 ∧
    (let bytes := aroundWrapFeedback.message.bytes
    (observeRtcpPacket .oneBlock (bytes ++ []) bytes.length).map
        (fun observation => (observation.packet, observation.update)) =
      [(⟨0, bytes.length⟩, .twccFeedback 65534 4 3),
       (⟨0, bytes.length⟩, .transportLossReport 4 (UInt32.ofNat (missingFrom aroundWrapFeedback aroundWrap)))]) :=
  ⟨by decide +kernel, observe_sent_feedback .oneBlock []
    (show (aroundWrap.maybeSendTwccFeedback 300000).2 = some aroundWrapFeedback by decide +kernel)⟩

end WeakNetVideo
