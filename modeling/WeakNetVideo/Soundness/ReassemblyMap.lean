import WeakNetVideo.Model.CheckedReceiver
import WeakNetVideo.Proofs.ReceiverInvariants

/-! # The map of frames under reassembly

Whatever arrives, an entry of the buffer has the id that it is stored under and the epoch of the receiver, and as
many slots as it has packets; a filled slot holds the packet of just this place. So the slots that the handler
reaches into are there.
-/

namespace WeakNetVideo

open Bounded

variable {rtc : Rtc} {r : Receiver}

/-! ## The invariant -/

/-- A packet whose metadata names a slot of a frame. -/
def FrameAssembly.HasPlace (rtc : Rtc) (frame : FrameAssembly) (i : ℕ) (message : Message) : Prop :=
  ∃ index : UInt16, index.toNat = i ∧ readFrameMetadata rtc message = some {
    keyframe := frame.keyframe
    epoch := frame.epoch
    frameId := frame.frameId
    packetIndex := index
    packetCount := frame.packetCount }

/-- Every filled slot of the buffer holds the packet of its place. -/
def Receiver.Filled (rtc : Rtc) (r : Receiver) : Prop :=
  ∀ (id : UInt32) (frame : FrameAssembly), r.frames[id]? = some frame →
    ∀ (i : ℕ) (message : Message), frame.packets[i]? = some (some message) → frame.HasPlace rtc i message

/-- What holds of the buffer of a receiver. -/
structure ReassemblyMap (rtc : Rtc) (r : Receiver) : Prop where
  size : r.frames.size ≤ 64
  id : ∀ (id : UInt32) (frame : FrameAssembly), r.frames[id]? = some frame → frame.frameId = id
  epoch : ∀ (id : UInt32) (frame : FrameAssembly), r.frames[id]? = some frame → r.receiverEpoch = some frame.epoch
  slots : ∀ (id : UInt32) (frame : FrameAssembly), r.frames[id]? = some frame →
    frame.packets.length = frame.packetCount.toNat
  filled : r.Filled rtc

namespace Receiver

private theorem filled_new (rtc : Rtc) (recoveryTimeoutMs : ℤ) : (new recoveryTimeoutMs).Filled rtc := by
  intro id frame found
  simp [new] at found

/-- An assembly for a packet holds the packets of the old one, or none. -/
private theorem assemblyFor_filled {atUs : ℤ} {metadata : FrameMetadata} {message : Message} (wellFormed : r.WellFormed)
    (filled : r.Filled rtc) (i : ℕ) (packet : Message)
    (there : ((r.adoptEpoch metadata).assemblyFor atUs metadata message).packets[i]? = some (some packet)) :
    ((r.adoptEpoch metadata).assemblyFor atUs metadata message).HasPlace rtc i packet := by
  cases found : (r.adoptEpoch metadata).frames[metadata.frameId]? with
  | none =>
    rw [assemblyFor_of_none found] at there
    have empty := List.mem_of_getElem? there
    simp [openAssembly, resize] at empty
  | some frame =>
    have before := (get_adoptEpoch found).1
    rw [assemblyFor_of_get found (wellFormed.seen _ frame before)] at there ⊢
    exact filled _ frame before i packet there

private theorem filled_processReceiverPacket {atUs : ℤ} {message : Message} (wellFormed : r.WellFormed)
    (filled : r.Filled rtc) : (r.processReceiverPacket rtc atUs message).Filled rtc := by
  cases valid : validMetadata rtc message with
  | none =>
    rw [processReceiverPacket_of_invalid valid]
    exact filled
  | some metadata =>
    intro id frame found i packet there
    rcases get_processReceiverPacket valid found with ⟨adopted, _⟩ | ⟨rfl, _⟩ | ⟨rfl, agrees, rfl⟩
    · exact filled id frame (get_adoptEpoch adopted).1 i packet there
    · simp [placeholder] at there
    · rcases get_fillSlot there with old | ⟨here, rfl⟩
      · exact assemblyFor_filled wellFormed filled i packet old
      · have own : ((r.adoptEpoch metadata).assemblyFor atUs metadata packet).frameId = metadata.frameId :=
          assemblyFor_frameId fun frame found => (wellFormed.labelled _ frame (get_adoptEpoch found).1).1
        obtain ⟨count, epoch, keyframe⟩ := agrees
        refine ⟨metadata.packetIndex, here, (validMetadata_some valid).1.trans ?_⟩
        simp only [fillSlot, count, epoch, keyframe, own]

private theorem filled_step (wellFormed : r.WellFormed) (filled : r.Filled rtc) (event : ReceiverEvent) :
    (r.step rtc event).1.Filled rtc := by
  cases event with
  | packet atUs message => exact filled_processReceiverPacket wellFormed filled
  | drain atUs =>
    obtain ⟨_, _, entries, _⟩ := drain_spec r atUs
    exact fun id frame found => filled id frame (entries id frame found)
  | poll atUs =>
    intro id frame found
    obtain ⟨before, nackUs, present, rfl⟩ := (poll_polled r atUs).get found
    exact filled id before present
  | invalidateSync =>
    intro id frame found
    simp [step, invalidateSync] at found
  | bindSend => exact filled
  | recordPliSent => exact filled

end Receiver

/-! ## Accesses -/

namespace Checked

variable {atUs : ℤ} {metadata : FrameMetadata} {message : Message} {frame : FrameAssembly}
  {entries : List (UInt32 × FrameAssembly)}

private theorem fillSlot_eq (inside : metadata.packetIndex.toNat < frame.packets.length) :
    fillSlot metadata message frame = .ok (Receiver.fillSlot metadata message frame) := by
  rw [fillSlot, itemAt_eq (List.getElem?_eq_getElem inside), ok_bind, Receiver.fillSlot,
    ← List.getElem_eq_getD (h := inside)]
  cases frame.packets[metadata.packetIndex.toNat] with
  | none =>
    simp only [Option.isNone_none, if_true, setItem_eq inside, ok_bind]
    rfl
  | some packet => rfl

private theorem storePacket_eq (named : metadata.packetIndex < metadata.packetCount)
    (slots : (r.assemblyFor atUs metadata message).packets.length =
      (r.assemblyFor atUs metadata message).packetCount.toNat) :
    storePacket r atUs metadata message = .ok (r.storePacket atUs metadata message) := by
  simp only [Receiver.assemblyFor] at slots
  rw [storePacket, Receiver.storePacket]
  split_ifs with mismatch
  · rfl
  · simp only [not_or, not_not] at mismatch
    have inside := UInt16.lt_iff_toNat_lt.mp named
    rw [← mismatch.1, ← slots] at inside
    simp only [fillSlot_eq inside, ok_bind]
    rfl

private theorem processReceiverPacket_eq (positive : atUs ≠ 0) (wellFormed : r.WellFormed) :
    processReceiverPacket rtc r atUs message = .ok (r.processReceiverPacket rtc atUs message) := by
  rw [processReceiverPacket, Receiver.processReceiverPacket]
  cases valid : Receiver.validMetadata rtc message with
  | none => rfl
  | some metadata =>
    apply storePacket_eq (Receiver.validMetadata_some valid).2.2
    rw [Receiver.assemblyFor_withPlaceholders]
    exact (Receiver.assemblyFor_wellFormed metadata message positive wellFormed).2

private theorem moveOut_eq (frames : FrameMap) (id : UInt32) (frame : FrameAssembly) :
    moveOut frames id frame = .ok (frames.insert id { frame with
      packets := List.replicate frame.packets.length none }, frame) := by
  rw [moveOut, takeOut_eq (Nat.zero_add _), ok_bind, List.take_zero, List.nil_append]
  rfl

private theorem resync_eq (r : Receiver) : resync atUs entries r = .ok (Receiver.resync atUs entries r) := by
  induction entries generalizing r with
  | nil => rfl
  | cons entry rest ih =>
    obtain ⟨id, frame⟩ := entry
    rw [resync, Receiver.resync]
    split_ifs
    · rw [moveOut_eq, ok_bind]
      simp only [OrderedMap.eraseThrough_insert]
      rfl
    · exact ih _
    · exact ih r

private theorem drainInOrder_eq (fuel : ℕ) (r : Receiver) :
    drainInOrder atUs fuel r = .ok (Receiver.drainInOrder atUs fuel r) := by
  induction fuel generalizing r with
  | zero => rfl
  | succ fuel ih =>
    rw [drainInOrder, Receiver.drainInOrder]
    cases cursor : r.nextOutputFrameId with
    | none => rfl
    | some next =>
      cases found : r.frames[next]? with
      | none =>
        simp only [found]
        rfl
      | some frame =>
        simp only [found]
        split_ifs
        · rw [moveOut_eq, ok_bind]
          simp only [OrderedMap.erase_insert, ih, ok_bind]
          rfl
        · rfl
        · rfl

private theorem drainCompleteFrames_eq (r : Receiver) :
    drainCompleteFrames r atUs = .ok (r.drainCompleteFrames atUs) := by
  rw [drainCompleteFrames, Receiver.drainCompleteFrames]
  split_ifs
  · exact drainInOrder_eq _ r
  · exact resync_eq r

private theorem missingSequences_eq {count i : ℕ} (inside : i + count ≤ frame.packets.length) :
    missingSequences frame count i = .ok (((List.range' i count).filter fun i => (frame.packets.getD i none).isNone).map
      fun i => frame.firstSequence + UInt16.ofNat i) := by
  induction count generalizing i with
  | zero => rfl
  | succ count ih =>
    have here : i < frame.packets.length := by omega
    rw [missingSequences, itemAt_eq (List.getElem?_eq_getElem here), ok_bind, ih (by omega), ok_bind, List.range'_succ,
      List.filter_cons, ← List.getElem_eq_getD (h := here)]
    split_ifs <;> rfl

private theorem sendNack_eq (slots : frame.packets.length = frame.packetCount.toNat) :
    sendNack frame = .ok (Receiver.sendNack frame) := by
  rw [sendNack, missingSequences_eq (by omega), ok_bind, Receiver.sendNack, Receiver.missingSequences,
    List.range_eq_range']
  rfl

private theorem pollFrame_eq (r : Receiver) (id : UInt32) (slots : frame.packets.length = frame.packetCount.toNat) :
    pollFrame atUs r (id, frame) = .ok (r.pollFrame atUs (id, frame)) := by
  rw [pollFrame, Receiver.pollFrame]
  by_cases idle : frame.packetCount = 0 ∨ frame.complete = true
  · rw [if_pos idle, if_pos idle]
    rfl
  · rw [if_neg idle, if_neg idle]
    by_cases due : r.nackDue atUs frame = true
    · rw [if_pos due, if_pos due, sendNack_eq slots, ok_bind]
      rfl
    · rw [if_neg due, if_neg due]
      rfl

private theorem pollFrames_eq (r : Receiver)
    (slots : ∀ entry ∈ entries, entry.2.packets.length = entry.2.packetCount.toNat) :
    pollFrames atUs entries r = .ok (Receiver.pollFrames atUs entries r) := by
  induction entries generalizing r with
  | nil => rfl
  | cons entry rest ih =>
    obtain ⟨here, later⟩ := List.forall_mem_cons.mp slots
    rw [pollFrames, pollFrame_eq r entry.1 here, ok_bind]
    simp only [ih _ later, ok_bind]
    rfl

private theorem poll_eq (wellFormed : r.WellFormed) : poll r atUs = .ok (r.poll atUs) := by
  rw [poll, Receiver.poll]
  split_ifs
  · rw [pollFrames_eq r fun entry member =>
      wellFormed.slots entry.1 entry.2 (Std.ExtTreeMap.mem_toList_iff_getElem?_eq_some.mp member), ok_bind]
    rfl
  · rfl

/-- An event in a well-formed state stays within the slots. -/
private theorem step_eq (wellFormed : r.WellFormed) {event : ReceiverEvent} (positive : Receiver.PositiveTime event) :
    step rtc r event = .ok (r.step rtc event) := by
  cases event with
  | packet atUs message =>
    rw [step, processReceiverPacket_eq (Int.ne_of_gt positive) wellFormed, ok_bind]
    rfl
  | drain atUs => exact drainCompleteFrames_eq r
  | poll atUs => exact poll_eq wellFormed
  | bindSend => rfl
  | invalidateSync => rfl
  | recordPliSent => rfl

end Checked

/-! ## Runs -/

/-- At every cut of a run of events the invariant holds, and the event that follows stays within the slots. -/
def KeptThroughout (rtc : Rtc) (recoveryTimeoutMs : ℤ) (events : List ReceiverEvent) : Prop :=
  ∀ before after, events = before ++ after →
    ReassemblyMap rtc ((receiverMachine rtc).final (.new recoveryTimeoutMs) before) ∧
      ∀ event ∈ after.head?, Checked.step rtc ((receiverMachine rtc).final (.new recoveryTimeoutMs) before) event =
        .ok (((receiverMachine rtc).final (.new recoveryTimeoutMs) before).step rtc event)

private theorem reassemblyMap_of_wellFormed (wellFormed : r.WellFormed) (filled : r.Filled rtc) :
    ReassemblyMap rtc r where
  size := wellFormed.size
  id id frame found := (wellFormed.labelled id frame found).1
  epoch id frame found := (wellFormed.labelled id frame found).2
  slots := wellFormed.slots
  filled := filled

private theorem keptThroughout_of_positive {recoveryTimeoutMs : ℤ} {events : List ReceiverEvent}
    (positive : ∀ event ∈ events, Receiver.PositiveTime event) : KeptThroughout rtc recoveryTimeoutMs events := by
  rintro before after rfl
  obtain ⟨past, future⟩ := List.forall_mem_append.mp positive
  have step (r : Receiver) (event : ReceiverEvent) (time : Receiver.PositiveTime event)
      (kept : r.WellFormed ∧ r.Filled rtc) : (r.step rtc event).1.WellFormed ∧ (r.step rtc event).1.Filled rtc :=
    ⟨Receiver.wellFormed_step rtc kept.1 event time, Receiver.filled_step kept.1 kept.2 event⟩
  obtain ⟨wellFormed, filled⟩ := (receiverMachine rtc).preserves step
    ⟨Receiver.wellFormed_new recoveryTimeoutMs, Receiver.filled_new rtc recoveryTimeoutMs⟩ past
  refine ⟨reassemblyMap_of_wellFormed wellFormed filled, fun event next => Checked.step_eq wellFormed ?_⟩
  exact future event (List.mem_of_mem_head? next)

/-- The buffer stays as it should be behind any calls at positive times, whatever arrives in them; and so it does
when the calls of several threads take turns. No access to a slot is out of range. -/
theorem reassemblyMap_kept (rtc : Rtc) (recoveryTimeoutMs : ℤ) :
    (∀ calls, PositiveTimes calls →
      ReassemblyMap rtc ((receiverCalls rtc).final (.new recoveryTimeoutMs) calls) ∧
        KeptThroughout rtc recoveryTimeoutMs (runEvents rtc calls)) ∧
      ∀ turns, (∀ event ∈ turnEvents rtc turns, Receiver.PositiveTime event) →
        KeptThroughout rtc recoveryTimeoutMs (turnEvents rtc turns) := by
  refine ⟨fun calls positive => ?_, fun turns => keptThroughout_of_positive⟩
  have kept : KeptThroughout rtc recoveryTimeoutMs (runEvents rtc calls) :=
    keptThroughout_of_positive (Receiver.positiveTime_runEvents positive)
  rw [final_calls]
  exact ⟨(kept _ [] (List.append_nil _).symm).1, kept⟩

private def fragment (frameId : UInt32) (count : UInt16) (keyframe : Bool) : MessagePtr :=
  some (addFrameMetadata .rfc5761 ⟨1, frameId, 0, count, keyframe⟩ (Rtp.packet (UInt16.ofNat frameId.toNat) false [1]))

/-- A keyframe, then the first of two packets of a frame some ids later, and a packet of one of the frames between
them, which is not what its placeholder is for. -/
def beyondGap : List ReceiverCall :=
  [.incoming ⟨[(1000, fragment 1 1 true), (1000, fragment 4 2 false), (1000, fragment 2 1 false)], 2000, 2000⟩]

theorem reassemblyMap_kept_beyondGap :
    ((receiverCalls .rfc5761).final (.new 500) beyondGap).frames.keys = [3, 4] ∧
      ReassemblyMap .rfc5761 ((receiverCalls .rfc5761).final (.new 500) beyondGap) := by
  refine ⟨by decide +kernel, ((reassemblyMap_kept .rfc5761 500).1 beyondGap ?_).1⟩
  intro batch member arrival inside
  obtain rfl := ReceiverCall.incoming.inj (List.mem_singleton.mp member)
  revert arrival
  decide +kernel

end WeakNetVideo
