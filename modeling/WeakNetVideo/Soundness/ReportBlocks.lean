import WeakNetVideo.Model.RtcpObservation
import Mathlib.Tactic.Common

/-! # Report blocks stay inside their packet

Transport feedback is read with a check of every step. Of a report only the structure with one block is
checked, while the number of blocks read is the one the header announces: the reads stay inside exactly
when the announced blocks fit.
-/

namespace WeakNetVideo

/-- A range of bytes lies in a packet. -/
def ByteRange.Inside (range : ByteRange) (packet : RtcpPacket) : Prop :=
  packet.start ≤ range.start ∧ range.start + range.length ≤ packet.start + packet.size

/-- An update is made from bytes of its packet only. -/
def RtcpObservation.Inside (observation : RtcpObservation) : Prop :=
  ∀ range ∈ observation.reads, range.Inside observation.packet

/-- The packets found in a buffer, from an offset on. -/
def rtcpPacketsFrom (memory : List Byte) (size : ℕ) : ℕ → ℕ → List RtcpPacket
  | 0, _ => []
  | fuel + 1, offset =>
    if offset + Rtcp.headerSize ≤ size then
      let packetSize := Rtcp.lengthInBytes memory offset
      if packetSize < Rtcp.headerSize ∨ offset + packetSize > size then []
      else ⟨offset, packetSize⟩ :: rtcpPacketsFrom memory size fuel (offset + packetSize)
    else []

def rtcpPackets (memory : List Byte) (size : ℕ) : List RtcpPacket :=
  rtcpPacketsFrom memory size size 0

/-- The blocks that a report announces fit its packet, if any are read. -/
def BlocksFit (memory : List Byte) (packet : RtcpPacket) (structSize blocksAt : ℕ) : Prop :=
  structSize ≤ packet.size → Rtcp.reportCount memory packet.start ≠ 0 →
    blocksAt + reportBlockSize * Rtcp.reportCount memory packet.start ≤ packet.size

/-- A report of either type has fitting blocks. -/
def ReportsFit (structs : RtcpStructs) (memory : List Byte) (packet : RtcpPacket) : Prop :=
  (Rtcp.payloadType memory packet.start = rtcpReceiverReport →
    BlocksFit memory packet structs.sizeofRr rrBlocksAt) ∧
  (Rtcp.payloadType memory packet.start = rtcpSenderReport →
    BlocksFit memory packet structs.sizeofSr srBlocksAt)

variable {structs : RtcpStructs} {memory : List Byte} {packet : RtcpPacket} {size : ℕ}

theorem observeFrom_eq (structs : RtcpStructs) (memory : List Byte) (size fuel offset : ℕ) :
    observeFrom structs memory size fuel offset =
      (rtcpPacketsFrom memory size fuel offset).flatMap (observePacket structs memory) := by
  induction fuel generalizing offset with
  | zero => rfl
  | succ fuel ih =>
    simp only [observeFrom, rtcpPacketsFrom]
    split_ifs
    · rfl
    · rw [List.flatMap_cons, ih]
    · rfl

/-! ## Reports -/

private theorem inside_observeReportBlock_iff {blocksAt i : ℕ} :
    (observeReportBlock structs memory packet
      (packet.start + blocksAt + reportBlockSize * i)).Inside ↔
        blocksAt + reportBlockSize * (i + 1) ≤ packet.size := by
  simp only [RtcpObservation.Inside, observeReportBlock, List.mem_singleton, forall_eq, ByteRange.Inside,
    reportBlockSize]
  omega

/-- The blocks are read inside exactly when the last one ends inside. -/
theorem inside_observeReport_iff {structSize blocksAt : ℕ} :
    (∀ observation ∈ observeReport structs memory packet structSize blocksAt, observation.Inside) ↔
      BlocksFit memory packet structSize blocksAt := by
  simp only [observeReport, asPacket, decide_eq_true_eq, BlocksFit]
  split_ifs with fits
  · simp only [List.mem_map, List.mem_range, forall_exists_index, and_imp,
      forall_apply_eq_imp_iff₂, inside_observeReportBlock_iff]
    constructor
    · intro each _ some_
      have last := each (Rtcp.reportCount memory packet.start - 1) (by omega)
      rwa [Nat.sub_add_cancel (by omega)] at last
    · intro all i below
      have whole := all fits (by omega)
      simp only [reportBlockSize] at whole ⊢
      omega
  · constructor
    · intro _ large
      exact absurd large fits
    · intro _ observation member
      contradiction

/-! ## Transport feedback -/

/-- A chunk is only counted. -/
private theorem chunk_keeps (parse : TwccParse) (chunk statusCount : UInt16) :
    (parse.chunk chunk statusCount).reads = parse.reads := by
  simp only [TwccParse.chunk]
  split
  · rfl
  · generalize List.range (if (decide (chunk &&& 0x4000 ≠ 0)) = true then 7 else 14) = turns
    induction turns generalizing parse with
    | nil => rfl
    | cons i rest ih =>
      rw [List.foldl_cons, ih]
      split_ifs <;> rfl

/-- The loop over the chunks reads inside the packet. -/
theorem inside_observeChunks {statusCount : UInt16} {fuel : ℕ} (parse : TwccParse)
    (before : ∀ range ∈ parse.reads, range.Inside packet) :
    ∀ range ∈ (observeChunks memory packet statusCount fuel parse).reads, range.Inside packet := by
  induction fuel generalizing parse with
  | zero => exact before
  | succ fuel ih =>
    simp only [observeChunks]
    split_ifs with more
    · apply ih
      rw [chunk_keeps]
      intro range member
      rcases List.mem_append.mp member with old | here
      · exact before range old
      · obtain rfl := List.mem_singleton.mp here
        simp only [ByteRange.Inside]
        omega
    · exact before

theorem inside_observeTwccFeedback :
    ∀ observation ∈ observeTwccFeedback memory packet, observation.Inside := by
  intro observation member
  simp only [observeTwccFeedback] at member
  split at member
  case isTrue => contradiction
  case isFalse large =>
    rcases List.mem_cons.mp member with rfl | report
    · intro range inside
      simp only [List.mem_cons, List.not_mem_nil, or_false] at inside
      rcases inside with rfl | rfl | rfl <;>
      · simp only [ByteRange.Inside]
        omega
    · split at report
      case isFalse => contradiction
      case isTrue =>
        obtain rfl := List.mem_singleton.mp report
        intro range inside
        rcases List.mem_cons.mp inside with rfl | chunk
        · simp only [ByteRange.Inside]
          omega
        · exact inside_observeChunks {} (fun _ none => absurd none List.not_mem_nil) range chunk

/-! ## Compound packets -/

private theorem inside_observePacket_iff :
    (∀ observation ∈ observePacket structs memory packet, observation.Inside) ↔
      ReportsFit structs memory packet := by
  simp only [observePacket, ReportsFit]
  split_ifs with receiver sender feedback
  · rw [inside_observeReport_iff]
    constructor
    · intro fits
      refine ⟨fun _ => fits, fun other => ?_⟩
      rw [receiver] at other
      contradiction
    · exact fun fits => fits.1 receiver
  · rw [inside_observeReport_iff]
    exact ⟨fun fits => ⟨fun other => absurd other receiver, fun _ => fits⟩, fun fits => fits.2 sender⟩
  · exact ⟨fun _ => ⟨fun other => absurd other receiver, fun other => absurd other sender⟩,
      fun _ => inside_observeTwccFeedback⟩
  · exact ⟨fun _ => ⟨fun other => absurd other receiver, fun other => absurd other sender⟩,
      fun _ _ member => absurd member List.not_mem_nil⟩

/-- Over any buffer and any memory behind it, every update is made from bytes of its own packet exactly
when the announced blocks of every report that is read fit. -/
theorem observations_inside_iff (structs : RtcpStructs) (memory : List Byte) (size : ℕ) :
    (∀ observation ∈ observeRtcpPacket structs memory size, observation.Inside) ↔
      ∀ packet ∈ rtcpPackets memory size, ReportsFit structs memory packet := by
  rw [observeRtcpPacket, observeFrom_eq]
  constructor
  · intro inside packet member
    exact inside_observePacket_iff.mp fun observation there =>
      inside observation (List.mem_flatMap.mpr ⟨packet, member, there⟩)
  · intro fits observation member
    obtain ⟨packet, found, there⟩ := List.mem_flatMap.mp member
    exact inside_observePacket_iff.mpr (fits packet found) observation there

/-- A receiver report of 32 bytes that announces two blocks. -/
def twoAnnounced : List Byte :=
  Rtcp.header 2 rtcpReceiverReport 7 ++ List.replicate 28 0

/-- The second block is read behind the packet, which here is the end of the buffer. -/
theorem twoAnnounced_not_inside : twoAnnounced.length = 32 ∧
    (observeRtcpPacket .oneBlock twoAnnounced 32).map RtcpObservation.reads = [[⟨8, 24⟩], [⟨32, 24⟩]] ∧
    ¬∀ observation ∈ observeRtcpPacket .oneBlock twoAnnounced 32, observation.Inside := by
  have found : observeRtcpPacket .oneBlock twoAnnounced 32 =
      [⟨⟨0, 32⟩, [⟨8, 24⟩], .receiverReport 0 0 0 0⟩, ⟨⟨0, 32⟩, [⟨32, 24⟩], .receiverReport 0 0 0 0⟩] := by
    decide +kernel
  refine ⟨rfl, by rw [found]; rfl, fun inside => ?_⟩
  rw [found] at inside
  have second := inside ⟨⟨0, 32⟩, [⟨32, 24⟩], .receiverReport 0 0 0 0⟩ (by simp) ⟨32, 24⟩ (by simp)
  exact absurd second.2 (by decide)

end WeakNetVideo
