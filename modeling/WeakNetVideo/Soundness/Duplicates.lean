import WeakNetVideo.Proofs.Assembly

/-! # Duplicates

A further copy of a packet changes nothing when its slot in a buffered frame is filled, its header
agrees and no placeholder is missing below it. A copy of a frame that is no longer buffered opens the
frame again; only a full and unsynchronized receiver whose frames are all later drops it at once.
-/

namespace WeakNetVideo

namespace Receiver

variable {rtc : Rtc} {r : Receiver} {atUs : ℤ} {metadata : FrameMetadata} {message : Message}

/-- Where there is room, every id from the cursor up to the packet's frame is buffered. -/
def NoGap (r : Receiver) (metadata : FrameMetadata) : Prop :=
  r.frames.size < maxBufferedFrames → ∀ next, r.nextOutputFrameId = some next →
    ∀ id : UInt32, next ≤ id → id < metadata.frameId → ∃ frame, r.frames[id]? = some frame

/-- The packet's frame is buffered, agrees with the packet and has it already. -/
def HeldBy (r : Receiver) (metadata : FrameMetadata) (message : Message) : Prop :=
  ∃ frame, r.frames[metadata.frameId]? = some frame ∧ Matches metadata frame ∧
    (frame.packets.getD metadata.packetIndex.toNat none).isSome = true ∧
    (Rtp.marker message.bytes = true → frame.markerSeen = true) ∧ r.NoGap metadata

/-- The packet's frame would be the lowest of a full buffer, and there is no synchronization to lose. -/
def TurnedAway (r : Receiver) (metadata : FrameMetadata) : Prop :=
  r.frames[metadata.frameId]? = none ∧ r.stats.synchronized = false ∧
    r.frames.size = maxBufferedFrames ∧
    ∀ (id : UInt32) (frame : FrameAssembly), r.frames[id]? = some frame → metadata.frameId < id

/-- A filled slot and a known marker leave the assembly as it is. -/
private theorem fillSlot_eq_self_iff {frame : FrameAssembly}
    (inside : metadata.packetIndex.toNat < frame.packets.length) :
    fillSlot metadata message frame = frame ↔
      (frame.packets.getD metadata.packetIndex.toNat none).isSome = true ∧
        (Rtp.marker message.bytes = true → frame.markerSeen = true) := by
  constructor
  · intro same
    have packets := congrArg FrameAssembly.packets same
    have marker := congrArg FrameAssembly.markerSeen same
    simp only [fillSlot] at packets marker
    constructor
    · by_contra empty
      rw [if_neg empty] at packets
      apply empty
      rw [← packets, List.getD_eq_getElem?_getD, List.getElem?_set_self inside]
      rfl
    · intro set
      rw [set, Bool.or_true] at marker
      exact marker.symm
  · rintro ⟨filled, known⟩
    have marker : (frame.markerSeen || Rtp.marker message.bytes) = frame.markerSeen := by
      cases set : Rtp.marker message.bytes with
      | false => exact Bool.or_false _
      | true => rw [known set]; rfl
    simp only [fillSlot, if_pos filled, marker]

/-- Nothing is added below a packet without a gap. -/
private theorem withPlaceholders_of_noGap {next : UInt32} (cursor : r.nextOutputFrameId = some next)
    (noGap : r.NoGap metadata) : r.withPlaceholders atUs metadata = r := by
  by_cases room : r.frames.size < maxBufferedFrames
  · exact withPlaceholders_of_present cursor (noGap room next cursor)
  · exact withPlaceholders_of_full (Nat.le_of_not_lt room)

private theorem cursor_of_get (wellFormed : r.WellFormed) {id : UInt32} {frame : FrameAssembly}
    (found : r.frames[id]? = some frame) : ∃ next, r.nextOutputFrameId = some next := by
  cases cursor : r.nextOutputFrameId with
  | some next => exact ⟨next, rfl⟩
  | none =>
    rw [wellFormed.cursor cursor, Std.ExtTreeMap.getElem?_empty] at found
    contradiction

theorem processReceiverPacket_of_heldBy (wellFormed : r.WellFormed)
    (valid : validMetadata rtc message = some metadata)
    (current : r.receiverEpoch = some metadata.epoch) (held : r.HeldBy metadata message) :
    r.processReceiverPacket rtc atUs message = r := by
  obtain ⟨frame, found, agrees, filled, marker, noGap⟩ := held
  obtain ⟨next, cursor⟩ := cursor_of_get wellFormed found
  have inside : metadata.packetIndex.toNat < frame.packets.length := by
    rw [wellFormed.slots _ frame found, agrees.1]
    exact UInt16.lt_iff_toNat_lt.mp (validMetadata_some valid).2.2
  have same : r.assemblyFor atUs metadata message = frame :=
    assemblyFor_of_get found (wellFormed.seen _ frame found)
  rw [processReceiverPacket_of_valid valid, adoptEpoch_of_same current (by rw [cursor]; rfl),
    withPlaceholders_of_noGap cursor noGap]
  obtain ⟨stored, stored_eq, step⟩ := storePacket_of_matches (r := r) (by rw [same]; exact agrees)
  rw [same, (fillSlot_eq_self_iff inside).mpr ⟨filled, marker⟩, OrderedMap.insert_of_get found]
    at stored_eq
  rw [step, stored_eq]
  exact evict_of_fits wellFormed.size _

/-- A frame that is not buffered is opened from the packet. -/
private theorem matches_of_absent (absent : r.frames[metadata.frameId]? = none) :
    Matches metadata (r.assemblyFor atUs metadata message) := by
  rw [assemblyFor_of_none absent]
  exact ⟨rfl, rfl, rfl⟩

/-- One entry too many costs the lowest one and the synchronization. -/
private theorem evict_one (surplus : r.frames.size = maxBufferedFrames + 1) :
    evict r.frames.size r = markUnsynchronized { r with frames := OrderedMap.eraseFirst r.frames } := by
  have less := OrderedMap.size_eraseFirst (m := r.frames) (by omega)
  rw [surplus, evict, if_pos (by omega)]
  apply evict_of_fits
  simp only [markUnsynchronized_frames]
  omega

/-- A new entry below all others is the one to go. -/
private theorem eraseFirst_insert_of_above {frames : FrameMap} {id : UInt32} {frame : FrameAssembly}
    (absent : frames[id]? = none)
    (above : ∀ (other : UInt32) (entry : FrameAssembly), frames[other]? = some entry → id < other) :
    OrderedMap.eraseFirst (frames.insert id frame) = frames := by
  have grown : (frames.insert id frame).size = frames.size + 1 :=
    OrderedMap.size_insert_of_none absent
  obtain ⟨first, value, found, erased, least⟩ :=
    OrderedMap.eraseFirst_eq (m := frames.insert id frame) (by omega)
  have here : first = id := by
    by_contra other
    rw [OrderedMap.get_insert_of_ne (Ne.symm other)] at found
    have below : first < id :=
      Std.compare_eq_lt.mp (least id frame Std.ExtTreeMap.getElem?_insert_self (Ne.symm other))
    exact UInt32.lt_irrefl _ (UInt32.lt_trans below (above first value found))
  rw [erased, here]
  exact OrderedMap.erase_insert_of_none absent

/-- A new entry that goes at once is below all others. -/
private theorem above_of_eraseFirst_insert {frames : FrameMap} {id : UInt32} {frame : FrameAssembly}
    (absent : frames[id]? = none)
    (gone : (OrderedMap.eraseFirst (frames.insert id frame))[id]? = none) (other : UInt32)
    (entry : FrameAssembly) (there : frames[other]? = some entry) : id < other := by
  have grown : (frames.insert id frame).size = frames.size + 1 :=
    OrderedMap.size_insert_of_none absent
  obtain ⟨first, value, _, erased, least⟩ :=
    OrderedMap.eraseFirst_eq (m := frames.insert id frame) (by omega)
  have here : first = id := by
    by_contra different
    rw [erased, OrderedMap.get_erase_of_ne different, Std.ExtTreeMap.getElem?_insert_self] at gone
    contradiction
  subst here
  have different : first ≠ other := by
    rintro rfl
    rw [absent] at there
    contradiction
  exact Std.compare_eq_lt.mp (least other entry (by rwa [OrderedMap.get_insert_of_ne different])
    different.symm)

theorem processReceiverPacket_of_turnedAway (wellFormed : r.WellFormed)
    (valid : validMetadata rtc message = some metadata)
    (current : r.receiverEpoch = some metadata.epoch) (away : r.TurnedAway metadata) :
    r.processReceiverPacket rtc atUs message = r := by
  obtain ⟨absent, lost, full, above⟩ := away
  have cursor : r.nextOutputFrameId.isSome = true := by
    by_contra unset
    rw [Option.not_isSome_iff_eq_none] at unset
    rw [wellFormed.cursor unset, Std.ExtTreeMap.size_empty] at full
    contradiction
  have agrees : Matches metadata (r.assemblyFor atUs metadata message) := matches_of_absent absent
  rw [processReceiverPacket_of_valid valid, adoptEpoch_of_same current cursor,
    withPlaceholders_of_full (Nat.le_of_eq full.symm)]
  obtain ⟨stored, stored_eq, step⟩ := storePacket_of_matches agrees
  have surplus : stored.frames.size = maxBufferedFrames + 1 := by
    rw [stored_eq, ← full]
    exact OrderedMap.size_insert_of_none absent
  rw [step, evict_one surplus, stored_eq, markUnsynchronized]
  simp only [eraseFirst_insert_of_above absent above, ← lost]

/-! ## The converse -/

/-- A copy of a packet of a buffered frame that changes nothing is held by the frame. -/
private theorem heldBy_of_sameState {frame : FrameAssembly} (wellFormed : r.WellFormed)
    (valid : validMetadata rtc message = some metadata)
    (current : r.receiverEpoch = some metadata.epoch) (found : r.frames[metadata.frameId]? = some frame)
    (same : SameState r (r.processReceiverPacket rtc atUs message)) : r.HeldBy metadata message := by
  obtain ⟨next, cursor⟩ := cursor_of_get wellFormed found
  have frames := same.frames
  rw [processReceiverPacket_of_valid valid, adoptEpoch_of_same current (by rw [cursor]; rfl)] at frames
  have own : (r.withPlaceholders atUs metadata).assemblyFor atUs metadata message = frame := by
    rw [assemblyFor_withPlaceholders]
    exact assemblyFor_of_get found (wellFormed.seen _ frame found)
  have present : (r.withPlaceholders atUs metadata).frames[metadata.frameId]? = some frame :=
    get_withPlaceholders_of_some found
  rcases (r.withPlaceholders atUs metadata).storePacket_cases atUs metadata message with
    ⟨agrees, stored, stored_eq, step⟩ | ⟨_, dropped⟩
  · rw [own] at agrees stored_eq
    have size : stored.frames.size = (r.withPlaceholders atUs metadata).frames.size := by
      rw [stored_eq]
      exact OrderedMap.size_insert_of_get present
    have fits : stored.frames.size ≤ maxBufferedFrames := by
      rw [size]
      exact size_withPlaceholders_le wellFormed.size
    rw [step, evict_of_fits fits] at frames
    have kept : fillSlot metadata message frame = frame := by
      have there := found
      rw [← frames, stored_eq, Std.ExtTreeMap.getElem?_insert_self] at there
      exact Option.some.inj there
    have inside : metadata.packetIndex.toNat < frame.packets.length := by
      rw [wellFormed.slots _ frame found, agrees.1]
      exact UInt16.lt_iff_toNat_lt.mp (validMetadata_some valid).2.2
    obtain ⟨filled, marker⟩ := (fillSlot_eq_self_iff inside).mp kept
    refine ⟨frame, found, agrees, filled, marker, fun room next' cursor' id lower upper => ?_⟩
    exact present_of_size_withPlaceholders cursor' room (by rw [← size, frames]) id lower upper
  · rw [dropped, markUnsynchronized_frames] at frames
    rw [← frames, Std.ExtTreeMap.getElem?_erase_self] at found
    contradiction

/-- A copy of a packet of another frame that changes nothing was turned away. -/
private theorem turnedAway_of_sameState (wellFormed : r.WellFormed)
    (valid : validMetadata rtc message = some metadata)
    (current : r.receiverEpoch = some metadata.epoch) (absent : r.frames[metadata.frameId]? = none)
    (same : SameState r (r.processReceiverPacket rtc atUs message)) : r.TurnedAway metadata := by
  have cursor : r.nextOutputFrameId.isSome = true := by
    obtain ⟨next, set⟩ := adoptEpoch_cursor r metadata
    rw [← same.cursor, processReceiverPacket_cursor valid, set]
    rfl
  have frames := same.frames
  have flag := same.synchronized
  rw [processReceiverPacket_of_valid valid, adoptEpoch_of_same current cursor] at frames flag
  have unfilled : (r.withPlaceholders atUs metadata).frames[metadata.frameId]? = none :=
    get_withPlaceholders_self.trans absent
  have agrees : Matches metadata
      ((r.withPlaceholders atUs metadata).assemblyFor atUs metadata message) :=
    matches_of_absent unfilled
  obtain ⟨stored, stored_eq, step⟩ := storePacket_of_matches agrees
  have size : stored.frames.size = (r.withPlaceholders atUs metadata).frames.size + 1 := by
    rw [stored_eq]
    exact OrderedMap.size_insert_of_none unfilled
  have bounded : (r.withPlaceholders atUs metadata).frames.size ≤ maxBufferedFrames :=
    size_withPlaceholders_le wellFormed.size
  rw [step] at frames flag
  by_cases fits : stored.frames.size ≤ maxBufferedFrames
  · rw [evict_of_fits fits, stored_eq] at frames
    rw [← frames, Std.ExtTreeMap.getElem?_insert_self] at absent
    contradiction
  · rw [evict_one (by omega)] at frames flag
    simp only [markUnsynchronized_frames, markUnsynchronized_synchronized, stored_eq] at frames flag
    have above := above_of_eraseFirst_insert unfilled (by rw [frames]; exact absent)
    rw [eraseFirst_insert_of_above unfilled above] at frames
    rw [frames] at above bounded size
    exact ⟨absent, flag.symm, by omega, above⟩

/-- One copy changes nothing exactly when it is held by its frame or turned away. -/
theorem processReceiverPacket_sameState_iff (wellFormed : r.WellFormed)
    (valid : validMetadata rtc message = some metadata)
    (current : r.receiverEpoch = some metadata.epoch) :
    SameState r (r.processReceiverPacket rtc atUs message) ↔
      r.HeldBy metadata message ∨ r.TurnedAway metadata := by
  constructor
  · intro same
    cases found : r.frames[metadata.frameId]? with
    | some frame => exact .inl (heldBy_of_sameState wellFormed valid current found same)
    | none => exact .inr (turnedAway_of_sameState wellFormed valid current found same)
  · rintro (held | away)
    · rw [processReceiverPacket_of_heldBy wellFormed valid current held]
      exact ⟨rfl, rfl, rfl, rfl⟩
    · rw [processReceiverPacket_of_turnedAway wellFormed valid current away]
      exact ⟨rfl, rfl, rfl, rfl⟩

end Receiver

/-! ## Any number of copies -/

/-- A receiver after further copies of a packet. -/
def afterCopies (rtc : Rtc) (r : Receiver) (message : Message) (times : List ℤ) : Receiver :=
  times.foldl (fun s atUs => s.processReceiverPacket rtc atUs message) r

/-- No number of copies moves the state or makes a poll ask for more. -/
def Absorbed (rtc : Rtc) (r : Receiver) (message : Message) : Prop :=
  ∀ times : List ℤ, (∀ atUs ∈ times, 0 < atUs) →
    Receiver.SameState r (afterCopies rtc r message times) ∧
      ∀ pollUs, ((afterCopies rtc r message times).poll pollUs).2.sent = (r.poll pollUs).2.sent

variable {rtc : Rtc}

/-- In every reachable state, copies of a packet of the current epoch are absorbed exactly when the
packet is held by its buffered frame, or its frame is gone and a full, unsynchronized buffer of later
frames turns it away. -/
theorem absorbed_iff {recoveryTimeoutMs : ℤ} {calls : List ReceiverCall}
    (positive : PositiveTimes calls) {message : Message} {metadata : FrameMetadata}
    (valid : Receiver.validMetadata rtc message = some metadata)
    (current : ((receiverCalls rtc).final (.new recoveryTimeoutMs) calls).receiverEpoch =
      some metadata.epoch) :
    Absorbed rtc ((receiverCalls rtc).final (.new recoveryTimeoutMs) calls) message ↔
      ((receiverCalls rtc).final (.new recoveryTimeoutMs) calls).HeldBy metadata message ∨
        ((receiverCalls rtc).final (.new recoveryTimeoutMs) calls).TurnedAway metadata := by
  have wellFormed := Receiver.wellFormed_calls rtc recoveryTimeoutMs positive
  generalize (receiverCalls rtc).final (.new recoveryTimeoutMs) calls = r at *
  constructor
  · intro absorbed
    exact (Receiver.processReceiverPacket_sameState_iff wellFormed valid current).mp
      (absorbed [1] (by simp)).1
  · intro kept
    have same : ∀ atUs, r.processReceiverPacket rtc atUs message = r := fun atUs => by
      rcases kept with held | away
      · exact Receiver.processReceiverPacket_of_heldBy wellFormed valid current held
      · exact Receiver.processReceiverPacket_of_turnedAway wellFormed valid current away
    have unchanged : ∀ times, afterCopies rtc r message times = r := by
      intro times
      induction times with
      | nil => rfl
      | cons atUs times ih => rw [afterCopies, List.foldl_cons, same]; exact ih
    intro times _
    rw [unchanged]
    exact ⟨⟨rfl, rfl, rfl, rfl⟩, fun _ => rfl⟩

/-- A keyframe of two packets. -/
def twoPackets : List SenderCall :=
  [.setOutgoingFrame 1 true, .outgoing [some (Rtp.packet 1 false [1]), some (Rtp.packet 2 true [2])]]

/-- Its first packet on the wire. -/
def firstPacket : Message :=
  addFrameMetadata Rtc.rfc5761 ⟨1, 1, 0, 2, true⟩ (Rtp.packet 1 false [1])

/-- The receiver that has handed the frame on. -/
def afterFrame : Receiver :=
  (receiverCalls Rtc.rfc5761).final (.new 1000)
    [deliverTogether 1000 (sentFrames Rtc.rfc5761 {} twoPackets)]

/-- A copy of a packet of a frame that was handed on opens the frame again, and the next poll asks for
the other packet. -/
theorem copy_not_absorbed : (∃ whole ∈ sentFrames Rtc.rfc5761 {} twoPackets, firstPacket ∈ whole.packets) ∧
    (emitted Rtc.rfc5761 (.new 1000) [deliverTogether 1000 (sentFrames Rtc.rfc5761 {} twoPackets)]).map
      FrameAssembly.frameId = [1] ∧
    afterFrame.frames.size = 0 ∧ (afterFrame.poll 130000).2.sent = [] ∧
    (afterCopies Rtc.rfc5761 afterFrame firstPacket [2000]).frames.size = 1 ∧
    ((afterCopies Rtc.rfc5761 afterFrame firstPacket [2000]).poll 130000).2.sent =
      [nackMessage [⟨2, 0⟩]] ∧
    ¬Absorbed Rtc.rfc5761 afterFrame firstPacket := by
  have empty : afterFrame.frames.size = 0 := by decide +kernel
  have opened : (afterCopies Rtc.rfc5761 afterFrame firstPacket [2000]).frames.size = 1 := by
    decide +kernel
  refine ⟨by decide +kernel, by decide +kernel, empty, by decide +kernel, opened, by decide +kernel,
    fun absorbed => ?_⟩
  have same := (absorbed [2000] (by decide)).1.frames
  rw [same, empty] at opened
  contradiction

/-- The receiver that has the first packet only. -/
def beforeFrame : List ReceiverCall := [.incoming ⟨[(1000, some firstPacket)], 1000, 1000⟩]

/-- Before the second packet arrives, copies of the first one are absorbed. -/
theorem absorbed_iff_firstPacket :
    Absorbed Rtc.rfc5761 ((receiverCalls Rtc.rfc5761).final (.new 1000) beforeFrame) firstPacket := by
  have positive : PositiveTimes beforeFrame := by
    intro batch member arrival inside
    obtain rfl := ReceiverCall.incoming.inj (List.mem_singleton.mp member)
    obtain rfl := List.mem_singleton.mp inside
    decide
  have cursor : ((receiverCalls Rtc.rfc5761).final (.new 1000) beforeFrame).nextOutputFrameId =
      some 1 := by decide +kernel
  have valid : Receiver.validMetadata Rtc.rfc5761 firstPacket = some ⟨1, 1, 0, 2, true⟩ := by
    decide +kernel
  refine (absorbed_iff positive valid (by decide +kernel)).mpr (.inl ⟨{
    epoch := 1, frameId := 1, packetCount := 2, firstSequence := 1, keyframe := true
    firstSeenUs := 1000, packets := [some firstPacket, none] }, by decide +kernel, ⟨rfl, rfl, rfl⟩, rfl,
    by decide +kernel, fun _ next same id lower upper => ?_⟩)
  obtain rfl := Option.some.inj (cursor.symm.trans same)
  exact absurd (UInt32.lt_of_le_of_lt lower upper) (UInt32.lt_irrefl _)

end WeakNetVideo
