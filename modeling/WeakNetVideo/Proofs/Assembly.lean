import WeakNetVideo.Proofs.ReceiverInvariants
import WeakNetVideo.Proofs.SenderRun

/-! # The buffer holds pieces of sent frames

Behind a channel that delivers nothing but the packets of a sender's run, every buffered frame is
either a placeholder or gathers the packets of the one sent frame of its id, each at its own index.
A complete one is therefore that frame.
-/

namespace WeakNetVideo

/-- The frames on the wire: each stamped throughout, and identified by its id. -/
structure Wire (rtc : Rtc) (sent : List SentFrame) : Prop where
  stamped : ∀ frame ∈ sent, frame.Stamped rtc
  unique : ∀ left ∈ sent, ∀ right ∈ sent, left.frameId = right.frameId → left = right

theorem wire_sentFrames {rtc : Rtc} (demultiplexes : rtc.DemultiplexesBySecondByte) {s : Sender}
    {calls : List SenderCall} (stampable : ∀ call ∈ calls, call.Stampable rtc)
    (short : (sentFrames rtc s calls).length < 2 ^ 32) : Wire rtc (sentFrames rtc s calls) :=
  ⟨stamped_sentFrames demultiplexes stampable, fun _ first _ second => eq_of_frameId short first second⟩

/-- A buffered frame with the data of a sent one and some of its packets in place. -/
structure Gathers (whole : SentFrame) (frame : FrameAssembly) : Prop where
  epoch : frame.epoch = whole.epoch
  keyframe : frame.keyframe = whole.keyframe
  count : frame.packetCount = UInt16.ofNat whole.packets.length
  slots : frame.packets.length = whole.packets.length
  packets : ∀ (i : ℕ) (packet : Message), frame.packets[i]? = some (some packet) →
    whole.packets[i]? = some packet

/-- A frame without a slot, or one that gathers the sent frame of its id. -/
def Assembles (sent : List SentFrame) (frame : FrameAssembly) : Prop :=
  (frame.packetCount = 0 ∧ frame.packets = []) ∨
    ∃ whole ∈ sent, whole.frameId = frame.frameId ∧ Gathers whole frame

variable {rtc : Rtc} {sent : List SentFrame} {whole : SentFrame} {frame : FrameAssembly}

/-- A packet of a sent frame is processed under its own stamp. -/
theorem validMetadata_of_mem (stamped : whole.Stamped rtc) {message : Message}
    {metadata : FrameMetadata} (member : message ∈ whole.packets)
    (valid : Receiver.validMetadata rtc message = some metadata) : ∃ i : ℕ, whole.packets[i]? = some message ∧
      metadata = whole.stamp i ∧ (UInt16.ofNat i).toNat = i ∧
      (UInt16.ofNat whole.packets.length).toNat = whole.packets.length := by
  obtain ⟨i, found⟩ := List.mem_iff_getElem?.mp member
  have inside := (List.getElem?_eq_some_iff.mp found).1
  have bounded := stamped.bounded
  obtain ⟨read, _⟩ := Receiver.validMetadata_some valid
  refine ⟨i, found, ?_, UInt16.toNat_ofNat_of_lt' (by simp only [UInt16.size]; omega),
    UInt16.toNat_ofNat_of_lt' (by simp only [UInt16.size]; omega)⟩
  rcases stamped.stamps i message found with same | refused
  · exact Option.some.inj (read.symm.trans same)
  · rw [refused] at read
    contradiction

/-! ## Filling a slot -/

/-- The new packet goes to its own index. -/
theorem Gathers.fillSlot (gathers : Gathers whole frame) {message : Message} {i : ℕ}
    (found : whole.packets[i]? = some message) (index : (UInt16.ofNat i).toNat = i) :
    Gathers whole (Receiver.fillSlot (whole.stamp i) message frame) := by
  refine ⟨gathers.epoch, gathers.keyframe, gathers.count, ?_, fun j packet there => ?_⟩
  · rw [Receiver.length_fillSlot, gathers.slots]
  · rcases Receiver.get_fillSlot there with old | ⟨here, rfl⟩
    · exact gathers.packets j packet old
    · have own : i = j := index.symm.trans here
      rw [← own]
      exact found

/-- The fresh slots of an opened assembly are empty; slots that were there belong to the same sent
frame. -/
private theorem gathers_openAssembly {atUs : ℤ} {message : Message} {i : ℕ} {before : FrameAssembly}
    (length : (UInt16.ofNat whole.packets.length).toNat = whole.packets.length)
    (unseen : before.firstSeenUs = 0) (old : before.packets = [] ∨ Gathers whole before) :
    Gathers whole (Receiver.openAssembly atUs (whole.stamp i) message before) := by
  have count : (whole.stamp i).packetCount.toNat = whole.packets.length := length
  simp only [Receiver.openAssembly, unseen, if_true, count]
  rcases old with blank | gathers
  · refine ⟨rfl, rfl, rfl, by simp [Receiver.resize, blank], fun j packet there => ?_⟩
    have empty := List.mem_of_getElem? there
    simp [Receiver.resize, blank] at empty
  · refine ⟨rfl, rfl, rfl, by simp [Receiver.resize, gathers.slots], fun j packet there => ?_⟩
    have same : Receiver.resize before.packets whole.packets.length = before.packets := by
      rw [← gathers.slots, Receiver.resize, List.take_length, Nat.sub_self, List.replicate_zero,
        List.append_nil]
    rw [same] at there
    exact gathers.packets j packet there

/-- A complete frame is the sent frame. -/
theorem packets_of_complete (assembles : Assembles sent frame) (complete : frame.complete = true) :
    ∃ whole ∈ sent, whole.frameId = frame.frameId ∧ Gathers whole frame ∧
      frame.packets = whole.packets.map some := by
  unfold FrameAssembly.complete at complete
  split_ifs at complete with short
  rw [not_or] at short
  rcases assembles with ⟨none, _⟩ | ⟨whole, member, id, gathers⟩
  · exact absurd none short.1
  · refine ⟨whole, member, id, gathers, List.ext_getElem? fun i => ?_⟩
    rw [List.getElem?_map]
    cases slot : frame.packets[i]? with
    | none =>
      rw [List.getElem?_eq_none_iff, gathers.slots, ← List.getElem?_eq_none_iff] at slot
      rw [slot]
      rfl
    | some pointer =>
      have filled := List.all_eq_true.mp complete pointer (List.mem_of_getElem? slot)
      obtain ⟨packet, rfl⟩ := Option.isSome_iff_exists.mp filled
      rw [gathers.packets i packet slot]
      rfl

/-! ## The invariant -/

/-- Every buffered frame is labelled and assembles a sent one. -/
structure Faithful (sent : List SentFrame) (r : Receiver) : Prop where
  labelled : r.Labelled
  assembles : ∀ (id : UInt32) (frame : FrameAssembly), r.frames[id]? = some frame → Assembles sent frame

theorem faithful_new (sent : List SentFrame) (recoveryTimeoutMs : ℤ) :
    Faithful sent (.new recoveryTimeoutMs) :=
  ⟨Receiver.labelled_new recoveryTimeoutMs, fun id frame found => by simp [Receiver.new] at found⟩

variable {r : Receiver}

/-- The assembly that a sent packet agrees with gathers the packet's frame. -/
private theorem gathers_assemblyFor (wire : Wire rtc sent) (faithful : Faithful sent r)
    (member : whole ∈ sent) {atUs : ℤ} {message : Message} {i : ℕ}
    (length : (UInt16.ofNat whole.packets.length).toNat = whole.packets.length)
    (positive : (whole.stamp i).packetCount ≠ 0)
    (agrees : Receiver.Matches (whole.stamp i) (r.assemblyFor atUs (whole.stamp i) message)) :
    Gathers whole (r.assemblyFor atUs (whole.stamp i) message) := by
  simp only [Receiver.assemblyFor] at agrees ⊢
  have old : ∀ before, r.frames[(whole.stamp i).frameId]? = some before →
      (before.packetCount = 0 ∧ before.packets = []) ∨ Gathers whole before := by
    intro before found
    rcases faithful.assembles _ before found with blank | ⟨other, inside, id, gathers⟩
    · exact .inl blank
    · obtain rfl : other = whole := wire.unique other inside whole member
        (id.trans (faithful.labelled _ before found).1)
      exact .inr gathers
  cases found : r.frames[(whole.stamp i).frameId]? with
  | none => exact gathers_openAssembly length rfl (.inl rfl)
  | some before =>
    rw [found] at agrees
    simp only [Option.getD_some] at agrees ⊢
    by_cases unseen : before.firstSeenUs = 0
    · exact gathers_openAssembly length unseen ((old before found).imp And.right id)
    · simp only [Receiver.openAssembly, unseen, if_false] at agrees ⊢
      rcases old before found with blank | gathers
      · exact absurd (agrees.1.symm.trans blank.1) positive
      · exact gathers

theorem faithful_processReceiverPacket (wire : Wire rtc sent) (faithful : Faithful sent r) {atUs : ℤ}
    {message : Message} (delivered : ∃ frame ∈ sent, message ∈ frame.packets) :
    Faithful sent (r.processReceiverPacket rtc atUs message) := by
  refine ⟨Receiver.labelled_processReceiverPacket faithful.labelled, fun id frame found => ?_⟩
  cases valid : Receiver.validMetadata rtc message with
  | none =>
    rw [Receiver.processReceiverPacket_of_invalid valid] at found
    exact faithful.assembles id frame found
  | some metadata =>
    obtain ⟨whole, member, packet⟩ := delivered
    obtain ⟨i, there, rfl, index, length⟩ :=
      validMetadata_of_mem (wire.stamped whole member) packet valid
    have adopted : Faithful sent (r.adoptEpoch (whole.stamp i)) := by
      refine ⟨fun id frame found => ?_, fun id frame found =>
        faithful.assembles id frame (Receiver.get_adoptEpoch found).1⟩
      obtain ⟨before, epoch⟩ := Receiver.get_adoptEpoch found
      rw [Receiver.adoptEpoch_receiverEpoch, ← epoch]
      exact faithful.labelled id frame before
    rcases Receiver.get_processReceiverPacket valid found with
      ⟨before, _⟩ | ⟨rfl, _⟩ | ⟨rfl, agrees, rfl⟩
    · exact adopted.assembles id frame before
    · exact .inl ⟨rfl, rfl⟩
    · have gathers := gathers_assemblyFor wire adopted member length
        (Receiver.validMetadata_some valid).2.1 agrees
      have own : ((r.adoptEpoch (whole.stamp i)).assemblyFor atUs (whole.stamp i) message).frameId =
          (whole.stamp i).frameId :=
        Receiver.assemblyFor_frameId fun frame found => (adopted.labelled _ frame found).1
      exact .inr ⟨whole, member, own.symm, gathers.fillSlot there index⟩

/-- A packet event brings a packet of a sent frame. -/
def Delivered (sent : List SentFrame) (event : ReceiverEvent) : Prop :=
  ∀ atUs message, event = .packet atUs message → ∃ frame ∈ sent, message ∈ frame.packets

/-- A delivered event keeps the invariant. -/
theorem faithful_step (wire : Wire rtc sent) (faithful : Faithful sent r) (event : ReceiverEvent)
    (delivered : Delivered sent event) :
    Faithful sent (r.step rtc event).1 := by
  cases event with
  | packet atUs message =>
    exact faithful_processReceiverPacket wire faithful (delivered atUs message rfl)
  | drain atUs =>
    exact ⟨Receiver.labelled_drain faithful.labelled atUs, fun id frame found =>
      faithful.assembles id frame ((Receiver.drain_spec r atUs).2.2.1 id frame found)⟩
  | poll atUs =>
    refine ⟨Receiver.labelled_step rtc faithful.labelled (.poll atUs), fun id frame found => ?_⟩
    obtain ⟨before, nackUs, present, rfl⟩ := (Receiver.poll_polled r atUs).get found
    rcases faithful.assembles id before present with blank | ⟨whole, member, same, gathers⟩
    · exact .inl blank
    · exact .inr ⟨whole, member, same, ⟨gathers.epoch, gathers.keyframe, gathers.count, gathers.slots,
        gathers.packets⟩⟩
  | invalidateSync =>
    exact ⟨Receiver.labelled_step rtc faithful.labelled .invalidateSync, fun id frame found => by
      simp [Receiver.step, Receiver.invalidateSync] at found⟩
  | bindSend => exact ⟨faithful.labelled, faithful.assembles⟩
  | recordPliSent => exact ⟨faithful.labelled, faithful.assembles⟩

/-- The frames of one event are sent frames, whole. -/
theorem emitted_of_faithful (rtc : Rtc) (faithful : Faithful sent r) (event : ReceiverEvent) :
    ∀ frame ∈ (r.step rtc event).2.frames, ∃ whole ∈ sent, whole.frameId = frame.frameId ∧
      Gathers whole frame ∧ frame.packets = whole.packets.map some := by
  intro frame member
  rcases Receiver.drain_or_other event with ⟨atUs, rfl⟩ | other
  · obtain ⟨id, found, complete⟩ := (Receiver.drain_spec r atUs).2.2.2 frame member
    exact packets_of_complete (faithful.assembles id frame found) complete
  · rw [Receiver.step_frames_of_ne_drain rtc r other] at member
    contradiction

/-! ## Whole runs -/

/-- The packet events of a run of calls are packets of sent frames. -/
theorem delivered_runEvents {calls : List ReceiverCall} (delivers : Delivers rtc sent calls) :
    ∀ event ∈ runEvents rtc calls, Delivered sent event := by
  rintro event member atUs message rfl
  obtain ⟨call, inside, there⟩ := List.mem_flatMap.mp member
  cases call with
  | incoming batch =>
    simp only [ReceiverCall.events, packetEvents, List.mem_cons, List.mem_append, List.mem_map,
      reduceCtorEq, false_or, List.not_mem_nil, or_false, ReceiverEvent.packet.injEq] at there
    obtain ⟨arrival, media, _, rfl⟩ := there
    exact delivers batch inside arrival media
  | poll atUs => simp [ReceiverCall.events] at there
  | invalidateSync => simp [ReceiverCall.events] at there
  | recordPliSent => simp [ReceiverCall.events] at there

/-- Along a run over delivered events every frame handed on is a sent frame, whole. -/
theorem emitted_run (wire : Wire rtc sent) (faithful : Faithful sent r) {events : List ReceiverEvent}
    (delivered : ∀ event ∈ events, Delivered sent event) :
    ∀ frame ∈ ((receiverMachine rtc).outputs r events).flatMap Output.frames,
      ∃ whole ∈ sent, whole.frameId = frame.frameId ∧ Gathers whole frame ∧
        frame.packets = whole.packets.map some := by
  induction events generalizing r with
  | nil => simp
  | cons event events ih =>
    intro frame member
    simp only [Transducer.outputs_cons, List.flatMap_cons, List.mem_append] at member
    rcases member with here | there
    · exact emitted_of_faithful rtc faithful event frame here
    · exact ih (faithful_step wire faithful event (delivered event (List.mem_cons_self ..)))
        (fun other inside => delivered other (List.mem_cons_of_mem _ inside)) frame there

theorem faithful_run (wire : Wire rtc sent) (faithful : Faithful sent r) {events : List ReceiverEvent}
    (delivered : ∀ event ∈ events, Delivered sent event) :
    Faithful sent ((receiverMachine rtc).final r events) :=
  (receiverMachine rtc).preserves (I := Faithful sent)
    (fun _ event admitted holds => faithful_step wire holds event admitted) faithful delivered

end WeakNetVideo
