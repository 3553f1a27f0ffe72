import WeakNetVideo.Proofs.ReceiverEvents

/-! # Invariants of the reassembly buffer

What holds of the buffer at every cut of every run: each entry is labelled with its own key and with
the receiver's epoch, and there are never more entries than the limit.
-/

namespace WeakNetVideo

namespace Receiver

variable {rtc : Rtc} {r : Receiver}

/-- Every buffered frame carries its own id and the receiver's epoch. -/
def Labelled (r : Receiver) : Prop :=
  ∀ (id : UInt32) (frame : FrameAssembly), r.frames[id]? = some frame →
    frame.frameId = id ∧ r.receiverEpoch = some frame.epoch

theorem labelled_new (recoveryTimeoutMs : ℤ) : (new recoveryTimeoutMs).Labelled := by
  intro id frame found
  simp [new] at found

/-- The assembly a packet is stored into has the packet's id. -/
theorem assemblyFor_frameId {atUs : ℤ} {metadata : FrameMetadata} {message : Message}
    (labelled : ∀ frame, r.frames[metadata.frameId]? = some frame → frame.frameId = metadata.frameId) :
    (r.assemblyFor atUs metadata message).frameId = metadata.frameId := by
  simp only [assemblyFor, openAssembly]
  split_ifs with unseen
  · rfl
  · cases found : r.frames[metadata.frameId]? with
    | none =>
      rw [found] at unseen
      exact absurd rfl unseen
    | some frame => exact labelled frame found

theorem labelled_processReceiverPacket {atUs : ℤ} {message : Message} (labelled : r.Labelled) :
    (r.processReceiverPacket rtc atUs message).Labelled := by
  cases valid : validMetadata rtc message with
  | none => rwa [processReceiverPacket_of_invalid valid]
  | some metadata =>
    intro id frame found
    rw [processReceiverPacket_receiverEpoch valid]
    rcases get_processReceiverPacket valid found with
      ⟨adopted, _⟩ | ⟨rfl, _⟩ | ⟨rfl, agrees, rfl⟩
    · obtain ⟨before, epoch⟩ := get_adoptEpoch adopted
      rw [← epoch]
      exact labelled id frame before
    · exact ⟨rfl, rfl⟩
    · refine ⟨assemblyFor_frameId fun frame found => ?_, by rw [← agrees.2.1]; rfl⟩
      exact (labelled _ frame (get_adoptEpoch found).1).1

theorem labelled_drain (labelled : r.Labelled) (atUs : ℤ) :
    (r.drainCompleteFrames atUs).1.Labelled := by
  obtain ⟨epoch, _, entries, _⟩ := drain_spec r atUs
  intro id frame found
  rw [epoch]
  exact labelled id frame (entries id frame found)

theorem labelled_poll (labelled : r.Labelled) (atUs : ℤ) : (r.poll atUs).1.Labelled := by
  have polled := poll_polled r atUs
  intro id frame found
  obtain ⟨before, nackUs, present, rfl⟩ := polled.get found
  rw [polled.epoch]
  exact labelled id before present

theorem labelled_step (rtc : Rtc) (labelled : r.Labelled) (event : ReceiverEvent) :
    (r.step rtc event).1.Labelled := by
  cases event with
  | bindSend => exact labelled
  | packet atUs message => exact labelled_processReceiverPacket labelled
  | drain atUs => exact labelled_drain labelled atUs
  | poll atUs => exact labelled_poll labelled atUs
  | invalidateSync =>
    intro id frame found
    simp [step, invalidateSync] at found
  | recordPliSent => exact labelled

/-! ## Well-formed buffers -/

/-- Behind positive readings of the clock: there are at most as many entries as allowed, none without
a cursor, each was seen at some time and has a slot for every packet. -/
structure WellFormed (r : Receiver) : Prop where
  labelled : r.Labelled
  size : r.frames.size ≤ maxBufferedFrames
  cursor : r.nextOutputFrameId = none → r.frames = ∅
  seen : ∀ (id : UInt32) (frame : FrameAssembly), r.frames[id]? = some frame → frame.firstSeenUs ≠ 0
  slots : ∀ (id : UInt32) (frame : FrameAssembly), r.frames[id]? = some frame →
    frame.packets.length = frame.packetCount.toNat

theorem wellFormed_new (recoveryTimeoutMs : ℤ) : (new recoveryTimeoutMs).WellFormed := by
  refine ⟨labelled_new recoveryTimeoutMs, Nat.zero_le _, fun _ => rfl, ?_, ?_⟩ <;>
  · intro id frame found
    simp [new] at found

/-- An assembly behind a packet has been seen and has its slots. -/
theorem assemblyFor_wellFormed {atUs : ℤ} (metadata : FrameMetadata) (message : Message) (positive : atUs ≠ 0)
    (wellFormed : r.WellFormed) : ((r.adoptEpoch metadata).assemblyFor atUs metadata message).firstSeenUs ≠ 0 ∧
      ((r.adoptEpoch metadata).assemblyFor atUs metadata message).packets.length =
        ((r.adoptEpoch metadata).assemblyFor atUs metadata message).packetCount.toNat := by
  cases found : (r.adoptEpoch metadata).frames[metadata.frameId]? with
  | none =>
    rw [assemblyFor_of_none found]
    exact ⟨positive, by simp [openAssembly, resize]⟩
  | some frame =>
    have before := (get_adoptEpoch found).1
    rw [assemblyFor_of_get found (wellFormed.seen _ frame before)]
    exact ⟨wellFormed.seen _ frame before, wellFormed.slots _ frame before⟩

theorem length_fillSlot (metadata : FrameMetadata) (message : Message) (frame : FrameAssembly) :
    (fillSlot metadata message frame).packets.length = frame.packets.length := by
  simp only [fillSlot]
  split_ifs
  · rfl
  · exact List.length_set

/-- A packet in a slot was there before, or is the one that the slot was filled with. -/
theorem get_fillSlot {metadata : FrameMetadata} {message packet : Message} {frame : FrameAssembly} {i : ℕ}
    (found : (fillSlot metadata message frame).packets[i]? = some (some packet)) :
    frame.packets[i]? = some (some packet) ∨ (metadata.packetIndex.toNat = i ∧ packet = message) := by
  simp only [fillSlot] at found
  split_ifs at found
  · exact .inl found
  · rw [List.getElem?_set] at found
    split_ifs at found with here
    · exact .inr ⟨here, (Option.some.inj (Option.some.inj found)).symm⟩
    · exact .inl found

theorem wellFormed_processReceiverPacket {atUs : ℤ} {message : Message} (positive : atUs ≠ 0)
    (wellFormed : r.WellFormed) : (r.processReceiverPacket rtc atUs message).WellFormed := by
  cases valid : validMetadata rtc message with
  | none =>
    rw [processReceiverPacket_of_invalid valid]
    exact ⟨wellFormed.labelled, wellFormed.size, wellFormed.cursor, wellFormed.seen, wellFormed.slots⟩
  | some metadata =>
    have entries : ∀ (id : UInt32) (frame : FrameAssembly),
        (r.processReceiverPacket rtc atUs message).frames[id]? = some frame →
          frame.firstSeenUs ≠ 0 ∧ frame.packets.length = frame.packetCount.toNat := by
      intro id frame found
      rcases get_processReceiverPacket valid found with ⟨adopted, _⟩ | ⟨rfl, _⟩ | ⟨rfl, _, rfl⟩
      · have before := (get_adoptEpoch adopted).1
        exact ⟨wellFormed.seen id frame before, wellFormed.slots id frame before⟩
      · exact ⟨positive, rfl⟩
      · obtain ⟨seen, slots⟩ := assemblyFor_wellFormed metadata message positive wellFormed
        exact ⟨seen, (length_fillSlot _ _ _).trans slots⟩
    refine ⟨labelled_processReceiverPacket wellFormed.labelled,
      size_processReceiverPacket_le wellFormed.size, fun unset => ?_,
      fun id frame found => (entries id frame found).1, fun id frame found => (entries id frame found).2⟩
    obtain ⟨next, cursor⟩ := adoptEpoch_cursor r metadata
    rw [processReceiverPacket_cursor valid, cursor] at unset
    contradiction

theorem wellFormed_drain (wellFormed : r.WellFormed) (atUs : ℤ) : (r.drainCompleteFrames atUs).1.WellFormed := by
  obtain ⟨_, _, entries, _⟩ := drain_spec r atUs
  refine ⟨labelled_drain wellFormed.labelled atUs, ?_, fun unset => ?_, fun id frame found =>
    wellFormed.seen id frame (entries id frame found), fun id frame found =>
    wellFormed.slots id frame (entries id frame found)⟩
  · exact Nat.le_trans (OrderedMap.size_le_of_get entries) wellFormed.size
  · have empty := wellFormed.cursor (drain_cursor r atUs unset)
    apply OrderedMap.eq_empty_of_get_none
    intro id
    cases found : (r.drainCompleteFrames atUs).1.frames[id]? with
    | none => rfl
    | some frame =>
      have before := entries id frame found
      rw [empty, Std.ExtTreeMap.getElem?_empty] at before
      contradiction

theorem wellFormed_poll (wellFormed : r.WellFormed) (atUs : ℤ) : (r.poll atUs).1.WellFormed := by
  have polled := poll_polled r atUs
  have entries : ∀ (id : UInt32) (frame : FrameAssembly), (r.poll atUs).1.frames[id]? = some frame →
      frame.firstSeenUs ≠ 0 ∧ frame.packets.length = frame.packetCount.toNat := by
    intro id frame found
    obtain ⟨before, nackUs, present, rfl⟩ := polled.get found
    exact ⟨wellFormed.seen id before present, wellFormed.slots id before present⟩
  refine ⟨labelled_poll wellFormed.labelled atUs, ?_, fun unset => ?_,
    fun id frame found => (entries id frame found).1, fun id frame found => (entries id frame found).2⟩
  · rw [polled.size]
    exact wellFormed.size
  · exact polled.empty (wellFormed.cursor (polled.cursor.symm.trans unset))

/-- The readings of the clock that an event may carry into the buffer are positive. -/
def PositiveTime : ReceiverEvent → Prop
  | .packet atUs _ => 0 < atUs
  | _ => True

theorem wellFormed_step (rtc : Rtc) (wellFormed : r.WellFormed) (event : ReceiverEvent)
    (positive : PositiveTime event) : (r.step rtc event).1.WellFormed := by
  cases event with
  | packet atUs message => exact wellFormed_processReceiverPacket (Int.ne_of_gt positive) wellFormed
  | drain atUs => exact wellFormed_drain wellFormed atUs
  | poll atUs => exact wellFormed_poll wellFormed atUs
  | invalidateSync =>
    refine ⟨labelled_step rtc wellFormed.labelled .invalidateSync, Nat.zero_le _, fun _ => rfl, ?_, ?_⟩ <;>
    · intro id frame found
      simp [step, invalidateSync] at found
  | bindSend =>
    exact ⟨wellFormed.labelled, wellFormed.size, wellFormed.cursor, wellFormed.seen, wellFormed.slots⟩
  | recordPliSent =>
    exact ⟨wellFormed.labelled, wellFormed.size, wellFormed.cursor, wellFormed.seen, wellFormed.slots⟩

theorem positiveTime_runEvents {calls : List ReceiverCall} (positive : PositiveTimes calls) :
    ∀ event ∈ runEvents rtc calls, PositiveTime event := by
  intro event member
  obtain ⟨call, inside, there⟩ := List.mem_flatMap.mp member
  cases call with
  | incoming batch =>
    simp only [ReceiverCall.events, packetEvents, mediaArrivals, List.mem_cons, List.mem_append,
      List.mem_map, List.mem_filterMap, List.not_mem_nil, or_false] at there
    rcases there with rfl | ⟨_, ⟨⟨atUs, pointer⟩, arrived, media⟩, rfl⟩ | rfl | rfl
    · trivial
    · split_ifs at media
      obtain ⟨message, _, rfl⟩ := Option.map_eq_some_iff.mp media
      exact positive batch inside _ arrived
    · trivial
    · trivial
  | poll atUs =>
    obtain rfl := List.mem_singleton.mp there
    trivial
  | invalidateSync =>
    obtain rfl := List.mem_singleton.mp there
    trivial
  | recordPliSent =>
    obtain rfl := List.mem_singleton.mp there
    trivial

theorem wellFormed_calls (rtc : Rtc) (recoveryTimeoutMs : ℤ) {calls : List ReceiverCall}
    (positive : PositiveTimes calls) :
    ((receiverCalls rtc).final (.new recoveryTimeoutMs) calls).WellFormed := by
  rw [final_calls]
  exact (receiverMachine rtc).preserves (I := WellFormed)
    (fun _ event admitted holds => wellFormed_step rtc holds event admitted)
    (wellFormed_new recoveryTimeoutMs) (positiveTime_runEvents positive)

/-- No event changes the timeout. -/
theorem step_recoveryTimeoutUs (rtc : Rtc) (r : Receiver) (event : ReceiverEvent) :
    (r.step rtc event).1.recoveryTimeoutUs = r.recoveryTimeoutUs := by
  cases event with
  | packet atUs message => exact (processReceiverPacket_config rtc r atUs message).timeout
  | drain atUs => exact (drain_spec r atUs).2.1.timeout
  | poll atUs => exact (poll_polled r atUs).config.timeout
  | bindSend => rfl
  | invalidateSync => rfl
  | recordPliSent => rfl

theorem final_recoveryTimeoutUs (rtc : Rtc) (r : Receiver) (events : List ReceiverEvent) :
    ((receiverMachine rtc).final r events).recoveryTimeoutUs = r.recoveryTimeoutUs := by
  induction events generalizing r with
  | nil => rfl
  | cons event events ih => exact (ih _).trans (step_recoveryTimeoutUs rtc r event)

/-! ## The synchronization flag -/

theorem drain_or_other (event : ReceiverEvent) :
    (∃ atUs, event = .drain atUs) ∨ ∀ atUs, event ≠ .drain atUs := by
  rcases Classical.em (∃ atUs, event = .drain atUs) with drain | other
  · exact .inl drain
  · exact .inr (not_exists.mp other)

/-- An event that hands frames on is a drain. -/
theorem step_frames_of_ne_drain (rtc : Rtc) (r : Receiver) {event : ReceiverEvent}
    (other : ∀ atUs, event ≠ .drain atUs) : (r.step rtc event).2.frames = [] := by
  cases event with
  | drain atUs => exact absurd rfl (other atUs)
  | poll atUs => exact poll_frames r atUs
  | bindSend => rfl
  | packet atUs message => rfl
  | invalidateSync => rfl
  | recordPliSent => rfl

/-- No event but a drain moves the epoch or the cursor of a receiver that it leaves synchronized,
and none restores the synchronization. -/
theorem step_synchronized_of_ne_drain {event : ReceiverEvent} (other : ∀ atUs, event ≠ .drain atUs)
    (kept : (r.step rtc event).1.stats.synchronized = true) :
    r.stats.synchronized = true ∧ (r.step rtc event).1.receiverEpoch = r.receiverEpoch ∧
      ∀ next, r.nextOutputFrameId = some next →
        (r.step rtc event).1.nextOutputFrameId = some next := by
  cases event with
  | drain atUs => exact absurd rfl (other atUs)
  | bindSend => exact ⟨kept, rfl, fun _ cursor => cursor⟩
  | recordPliSent => exact ⟨kept, rfl, fun _ cursor => cursor⟩
  | invalidateSync => simp [step, invalidateSync] at kept
  | poll atUs =>
    have polled := poll_polled r atUs
    exact ⟨polled.synchronized.symm.trans kept, polled.epoch, fun next cursor =>
      polled.cursor.trans cursor⟩
  | packet atUs message =>
    obtain ⟨before, metadata, valid, same⟩ := processReceiverPacket_synchronized kept
    refine ⟨before, (processReceiverPacket_receiverEpoch valid).trans same.symm, fun next cursor => ?_⟩
    simp only [step]
    rw [processReceiverPacket_cursor valid, adoptEpoch_of_same same (by rw [cursor]; rfl)]
    exact cursor

end Receiver

end WeakNetVideo
