import WeakNetVideo.Proofs.Burst
import WeakNetVideo.Proofs.ExtensionElements
import WeakNetVideo.Soundness.Nack
import WeakNetVideo.Soundness.RepairAttempts

/-! # An answered NACK completes the frame

The numbers of a NACK are counted from the first packet of the frame. Where the packets of every frame are
numbered in a row, they are the numbers of just the packets that are missing, so the frame is whole as soon as the
packets with these numbers have come.
-/

namespace WeakNetVideo

variable {rtc : Rtc} {sent : List SentFrame} {whole : SentFrame} {frame : FrameAssembly} {r : Receiver}
  {recoveryTimeoutMs pollUs : ℤ} {id : UInt32} {before rest : List ReceiverEvent} {nack : Message}

/-! ## Numbers in a row -/

/-- The packets are numbered in a row. -/
def NumberedFrom (first : UInt16) (packets : List Message) : Prop :=
  ∀ (i : ℕ) (packet : Message), packets[i]? = some packet → Rtp.seqNumber packet.bytes = first + UInt16.ofNat i

/-- The media packets of a batch are numbered in a row, as a packetizer numbers them. -/
def SenderCall.InARow (rtc : Rtc) : SenderCall → Prop
  | .setOutgoingFrame _ _ => True
  | .outgoing messages => ∃ first, NumberedFrom first (present (messages.filter (isRtp rtc)))

/-- A stamp leaves the number of a packet. -/
theorem seqNumber_addFrameMetadata (metadata : FrameMetadata) {message : Message}
    (small : message.bytes.length ≤ 65535) :
    Rtp.seqNumber (addFrameMetadata rtc metadata message).bytes = Rtp.seqNumber message.bytes := by
  rw [addFrameMetadata]
  split_ifs
  · cases old : oldExtension message.bytes with
    | none => simp only [rewriteExtension, old]
    | some kept =>
      have fits := (oldExtension_some old).2
      have value := metadata.length_value
      have extended : Extended message.bytes [(frameInfoExtMapId, metadata.value)]
          (rewriteExtension message.bytes (frameInfoDescriptor :: metadata.value)) :=
        extended_rewriteExtension old (by omega) (by decide) (by decide) (by decide) (by rw [value]; decide)
      exact extended.seqNumber
  · rfl

/-- The packets of every frame on the wire are numbered in a row. -/
theorem numberedFrom_sentFrames (demultiplexes : rtc.DemultiplexesBySecondByte) {s : Sender}
    {calls : List SenderCall} (stampable : ∀ call ∈ calls, call.Stampable rtc)
    (inARow : ∀ call ∈ calls, call.InARow rtc) :
    ∀ frame ∈ sentFrames rtc s calls, ∃ first, NumberedFrom first frame.packets := by
  induction calls generalizing s with
  | nil => simp [sentFrames]
  | cons call calls ih =>
    obtain ⟨fits, later⟩ := List.forall_mem_cons.mp stampable
    obtain ⟨own, others⟩ := List.forall_mem_cons.mp inARow
    intro frame member
    rcases List.mem_append.mp member with here | there
    · cases call with
      | setOutgoingFrame epoch keyframe => simp [Sender.sentFrame] at here
      | outgoing messages =>
        obtain ⟨_, _, _, packets, _⟩ := sentFrame_outgoing demultiplexes fits.1 (Option.mem_toList.mp here)
        obtain ⟨first, numbers⟩ := own
        refine ⟨first, fun i packet found => ?_⟩
        rw [packets, List.getElem?_mapIdx] at found
        obtain ⟨message, bare, rfl⟩ := Option.map_eq_some_iff.mp found
        obtain ⟨inside, media⟩ := mem_present_media (List.mem_of_getElem? bare)
        rw [seqNumber_addFrameMetadata _ (fits.2 message inside media).1, numbers i message bare]
    · exact ih later others frame there

/-! ## The first number of an assembly -/

/-- Every assembly of a sent frame counts from the number of the frame's first packet. -/
def CountsFromFirst (sent : List SentFrame) (r : Receiver) : Prop :=
  ∀ (id : UInt32) (frame : FrameAssembly), r.frames[id]? = some frame → frame.packetCount ≠ 0 →
    ∀ whole ∈ sent, whole.frameId = id → NumberedFrom frame.firstSequence whole.packets

private theorem countsFromFirst_packet (wire : Wire rtc sent)
    (numbered : ∀ frame ∈ sent, ∃ first, NumberedFrom first frame.packets) (wellFormed : r.WellFormed)
    (counts : CountsFromFirst sent r) {atUs : ℤ} {message : Message}
    (delivered : ∃ frame ∈ sent, message ∈ frame.packets) :
    CountsFromFirst sent (r.processReceiverPacket rtc atUs message) := by
  cases valid : Receiver.validMetadata rtc message with
  | none =>
    rw [Receiver.processReceiverPacket_of_invalid valid]
    exact counts
  | some metadata =>
    intro id frame found opened whole member same
    rcases Receiver.get_processReceiverPacket valid found with ⟨adopted, _⟩ | ⟨rfl, _⟩ | ⟨rfl, agrees, rfl⟩
    · exact counts id frame (Receiver.get_adoptEpoch adopted).1 opened whole member same
    · exact absurd rfl opened
    · obtain ⟨own, inside, packet⟩ := delivered
      obtain ⟨i, slot, rfl, _⟩ := validMetadata_of_mem (wire.stamped own inside) packet valid
      obtain rfl := wire.unique whole member own inside same
      cases present : (r.adoptEpoch (whole.stamp i)).frames[(whole.stamp i).frameId]? with
      | none =>
        rw [Receiver.assemblyFor_of_none present]
        obtain ⟨first, numbers⟩ := numbered whole member
        have number : Rtp.seqNumber message.bytes - UInt16.ofNat i = first := by
          rw [numbers i message slot, UInt16.add_sub_cancel]
        intro j other there
        change _ = Rtp.seqNumber message.bytes - UInt16.ofNat i + UInt16.ofNat j
        rw [number]
        exact numbers j other there
      | some old =>
        have there := (Receiver.get_adoptEpoch present).1
        rw [Receiver.assemblyFor_of_get present (wellFormed.seen _ _ there)] at agrees ⊢
        have nonzero : old.packetCount ≠ 0 := by
          rw [agrees.1]
          exact (Receiver.validMetadata_some valid).2.1
        exact counts _ old there nonzero whole member same

private theorem countsFromFirst_step (wire : Wire rtc sent)
    (numbered : ∀ frame ∈ sent, ∃ first, NumberedFrom first frame.packets) (wellFormed : r.WellFormed)
    (counts : CountsFromFirst sent r) (event : ReceiverEvent)
    (delivered : Delivered sent event) : CountsFromFirst sent (r.step rtc event).1 := by
  cases event with
  | packet atUs message =>
    exact countsFromFirst_packet wire numbered wellFormed counts (delivered atUs message rfl)
  | drain atUs => exact fun id frame found => counts id frame ((Receiver.drain_spec r atUs).2.2.1 id frame found)
  | poll atUs =>
    intro id frame found
    obtain ⟨old, nackUs, there, rfl⟩ := (Receiver.poll_polled r atUs).get found
    exact counts id old there
  | invalidateSync =>
    intro id frame found
    simp [Receiver.step, Receiver.invalidateSync] at found
  | bindSend => exact counts
  | recordPliSent => exact counts

/-- What holds of the buffer behind a run over sent packets. -/
structure Assembled (sent : List SentFrame) (r : Receiver) : Prop where
  wellFormed : r.WellFormed
  faithful : Faithful sent r
  counts : CountsFromFirst sent r

theorem assembled_run (wire : Wire rtc sent) (numbered : ∀ frame ∈ sent, ∃ first, NumberedFrom first frame.packets)
    (recoveryTimeoutMs : ℤ) {events : List ReceiverEvent} (delivered : ∀ event ∈ events, Delivered sent event)
    (positive : ∀ event ∈ events, Receiver.PositiveTime event) :
    Assembled sent (stateBehind rtc recoveryTimeoutMs events) := by
  refine (receiverMachine rtc).preserves (I := Assembled sent)
    (fun r event (admitted : Delivered sent event ∧ Receiver.PositiveTime event) holds => ?_) ?_
    fun event member => ⟨delivered event member, positive event member⟩
  · exact ⟨Receiver.wellFormed_step rtc holds.wellFormed event admitted.2,
      faithful_step wire holds.faithful event admitted.1,
      countsFromFirst_step wire numbered holds.wellFormed holds.counts event admitted.1⟩
  · refine ⟨Receiver.wellFormed_new recoveryTimeoutMs, faithful_new sent recoveryTimeoutMs, fun id frame found => ?_⟩
    simp [Receiver.new] at found

/-! ## Slots that fill -/

/-- The assembly of a sent frame. -/
theorem Assembled.gathers (assembled : Assembled sent r) (wire : Wire rtc sent) (member : whole ∈ sent)
    (found : r.frames[whole.frameId]? = some frame) (opened : frame.packetCount ≠ 0) : Gathers whole frame := by
  rcases assembled.faithful.assembles _ frame found with ⟨empty, _⟩ | ⟨other, inside, same, gathers⟩
  · exact absurd empty opened
  · have labelled := (assembled.faithful.labelled _ frame found).1
    obtain rfl := wire.unique other inside whole member (same.trans labelled)
    exact gathers

/-- An assembly has what an earlier one had, and what has come since. -/
structure HasSince (whole : SentFrame) (old : FrameAssembly) (arrived : List Message) (frame : FrameAssembly) :
    Prop where
  opened : frame.packetCount ≠ 0
  slots : ∀ (i : ℕ) (packet : Message), whole.packets[i]? = some packet →
    old.packets[i]? = some (some packet) ∨ packet ∈ arrived → frame.packets[i]? = some (some packet)

/-- A slot of the frame that is filled with anything holds the packet of its place. -/
private theorem slot_fillSlot {i : ℕ} {message : Message} (gathers : Gathers whole frame)
    (index : (UInt16.ofNat i).toNat = i) (slot : whole.packets[i]? = some message) :
    (Receiver.fillSlot (whole.stamp i) message frame).packets[i]? = some (some message) := by
  have inside : i < frame.packets.length := by
    rw [gathers.slots]
    exact (List.getElem?_eq_some_iff.mp slot).1
  have place : (whole.stamp i).packetIndex.toNat = i := index
  simp only [Receiver.fillSlot, place]
  split_ifs with filled
  · rw [← List.getElem_eq_getD (h := inside)] at filled
    obtain ⟨packet, there⟩ := Option.isSome_iff_exists.mp filled
    have own : frame.packets[i]? = some (some packet) := by
      rw [List.getElem?_eq_getElem inside, there]
    have same := gathers.packets i packet own
    rw [slot] at same
    rw [own, Option.some.inj same]
  · rw [List.getElem?_set_self inside]

/-- A filled slot stays as it is. -/
private theorem kept_fillSlot {i : ℕ} {message packet : Message} {metadata : FrameMetadata}
    (filled : frame.packets[i]? = some (some packet)) :
    (Receiver.fillSlot metadata message frame).packets[i]? = some (some packet) := by
  simp only [Receiver.fillSlot]
  split_ifs with taken
  · exact filled
  · rw [List.getElem?_set]
    split_ifs with here inside
    · subst here
      rw [List.getD_eq_getElem?_getD, filled] at taken
      exact absurd rfl taken
    · rw [List.getElem?_eq_none_iff.mpr (by omega)] at filled
      contradiction
    · exact filled

variable {old : FrameAssembly} {arrived : List Message}

/-- A packet fills its slot, and no other packet is one of the frame. -/
private theorem hasSince_packet (wire : Wire rtc sent) (assembled : Assembled sent r) (member : whole ∈ sent)
    (readable : ∀ packet ∈ whole.packets, (readFrameMetadata rtc packet).isSome = true) {atUs : ℤ}
    {message : Message} (delivered : ∃ frame ∈ sent, message ∈ frame.packets)
    (has : HasSince whole old arrived frame) (found : r.frames[whole.frameId]? = some frame)
    (later : frame.firstSeenUs < atUs) {after : FrameAssembly}
    (present : (r.processReceiverPacket rtc atUs message).frames[whole.frameId]? = some after)
    (seen : after.firstSeenUs = frame.firstSeenUs) : HasSince whole old (message :: arrived) after := by
  have burst := burst_single wire member readable
  obtain ⟨own, inside, packet⟩ := delivered
  cases valid : Receiver.validMetadata rtc message with
  | none =>
    rw [Receiver.processReceiverPacket_of_invalid valid] at present
    obtain rfl := Option.some.inj (found.symm.trans present)
    refine ⟨has.opened, fun i other slot source => has.slots i other slot (source.imp_right fun come => ?_)⟩
    rcases List.mem_cons.mp come with rfl | come
    · have read := burst.validMetadata (List.mem_cons_self ..) slot
      rw [valid] at read
      contradiction
    · exact come
  | some metadata =>
    obtain ⟨j, place, rfl, index, _⟩ := validMetadata_of_mem (wire.stamped own inside) packet valid
    rcases Receiver.get_processReceiverPacket valid present with ⟨adopted, apart⟩ | ⟨rfl, _⟩ | ⟨same, agrees, rfl⟩
    · have there := (Receiver.get_adoptEpoch adopted).1
      obtain rfl := Option.some.inj (found.symm.trans there)
      refine ⟨has.opened, fun i other slot source => has.slots i other slot (source.imp_right fun come => ?_)⟩
      rcases List.mem_cons.mp come with rfl | come
      · have read := burst.validMetadata (List.mem_cons_self ..) slot
        have same := Option.some.inj (valid.symm.trans read)
        exact absurd (congrArg FrameMetadata.frameId same).symm apart
      · exact come
    · exact absurd seen (Int.ne_of_gt later)
    · obtain rfl := wire.unique whole member own inside same
      cases there : (r.adoptEpoch (whole.stamp j)).frames[(whole.stamp j).frameId]? with
      | none =>
        rw [Receiver.assemblyFor_of_none there] at seen
        exact absurd seen (Int.ne_of_gt later)
      | some before =>
        have buffered := (Receiver.get_adoptEpoch there).1
        obtain rfl := Option.some.inj (found.symm.trans buffered)
        rw [Receiver.assemblyFor_of_get there (assembled.wellFormed.seen _ _ buffered)]
        have gathers := assembled.gathers wire member found has.opened
        refine ⟨has.opened, fun i other slot source => ?_⟩
        by_cases here : other = message
        · subst here
          obtain ⟨_, rfl⟩ := @Burst.place_unique _ _ _ _ burst 0 0 _ _ _ _ _ rfl place rfl slot
          exact slot_fillSlot gathers index place
        · exact kept_fillSlot (has.slots i other slot (source.imp_right fun come => List.mem_of_ne_of_mem here come))

/-- An event at which the assembly stays keeps what it has. -/
private theorem hasSince_step (wire : Wire rtc sent) (assembled : Assembled sent r) (member : whole ∈ sent)
    (readable : ∀ packet ∈ whole.packets, (readFrameMetadata rtc packet).isSome = true) {event : ReceiverEvent}
    (delivered : Delivered sent event) (has : HasSince whole old arrived frame)
    (found : r.frames[whole.frameId]? = some frame)
    (later : ∀ atUs message, event = .packet atUs message → frame.firstSeenUs < atUs) {after : FrameAssembly}
    (present : (r.step rtc event).1.frames[whole.frameId]? = some after)
    (seen : after.firstSeenUs = frame.firstSeenUs) : HasSince whole old (arrived ++ processed [event]) after := by
  cases event with
  | packet atUs message =>
    have next := hasSince_packet wire assembled member readable (delivered atUs message rfl) has found
      (later atUs message rfl) present seen
    refine ⟨next.opened, fun i packet slot source => next.slots i packet slot (source.imp_right fun come => ?_)⟩
    rcases List.mem_append.mp come with come | here
    · exact List.mem_cons_of_mem _ come
    · exact List.mem_singleton.mp here ▸ List.mem_cons_self ..
  | poll atUs =>
    obtain ⟨before, nackUs, there, rfl⟩ := (Receiver.poll_polled r atUs).get present
    obtain rfl := Option.some.inj (found.symm.trans there)
    have none : processed [.poll atUs] = [] := rfl
    rw [none, List.append_nil]
    exact ⟨has.opened, has.slots⟩
  | drain atUs =>
    have there := (Receiver.drain_spec r atUs).2.2.1 _ after present
    obtain rfl := Option.some.inj (found.symm.trans there)
    have none : processed [.drain atUs] = [] := rfl
    rwa [none, List.append_nil]
  | invalidateSync => simp [Receiver.step, Receiver.invalidateSync] at present
  | bindSend =>
    obtain rfl := Option.some.inj (found.symm.trans present)
    have none : processed [.bindSend] = [] := rfl
    rwa [none, List.append_nil]
  | recordPliSent =>
    obtain rfl := Option.some.inj (found.symm.trans present)
    have none : processed [.recordPliSent] = [] := rfl
    rwa [none, List.append_nil]

/-- While the assembly stays, its slots fill with what comes. -/
private theorem hasSince_run (wire : Wire rtc sent)
    (numbered : ∀ frame ∈ sent, ∃ first, NumberedFrom first frame.packets) (member : whole ∈ sent)
    (readable : ∀ packet ∈ whole.packets, (readFrameMetadata rtc packet).isSome = true)
    (delivered : ∀ event ∈ before ++ rest, Delivered sent event)
    (positive : ∀ event ∈ before ++ rest, Receiver.PositiveTime event)
    (found : (stateBehind rtc recoveryTimeoutMs before).frames[whole.frameId]? = some frame)
    (opened : frame.packetCount ≠ 0)
    (kept : KeptSince rtc recoveryTimeoutMs before rest whole.frameId frame.firstSeenUs)
    (later : ∀ atUs message, .packet atUs message ∈ rest → frame.firstSeenUs < atUs) :
    ∃ after, (stateBehind rtc recoveryTimeoutMs (before ++ rest)).frames[whole.frameId]? = some after ∧
      after.firstSeenUs = frame.firstSeenUs ∧ HasSince whole frame (processed rest) after := by
  induction rest using List.reverseRecOn with
  | nil =>
    rw [List.append_nil]
    exact ⟨frame, found, rfl, opened, fun i packet _ source => source.resolve_right List.not_mem_nil⟩
  | append_singleton rest event ih =>
    rw [← List.append_assoc] at delivered positive ⊢
    rw [List.forall_mem_append, List.forall_mem_singleton] at delivered positive
    obtain ⟨middle, there, seen, has⟩ := ih delivered.1 positive.1
      (fun first second split => kept first (second ++ [event]) (by rw [split, List.append_assoc]))
      fun atUs message inside => later atUs message (List.mem_append_left _ inside)
    obtain ⟨after, present, same⟩ := kept (rest ++ [event]) [] (List.append_nil _).symm
    rw [← List.append_assoc] at present
    have assembled := assembled_run wire numbered recoveryTimeoutMs delivered.1 positive.1
    refine ⟨after, present, same, ?_⟩
    rw [processed_append]
    rw [stateBehind_concat] at present
    apply hasSince_step wire assembled member readable delivered.2 has there _ present (same.trans seen.symm)
    rintro atUs message rfl
    rw [seen]
    exact later atUs message (List.mem_append_right _ (List.mem_singleton.mpr rfl))

/-! ## The answer -/

/-- The sequence numbers that a NACK asks for, as the sender reads them. -/
def requestedNumbers (nack : Message) : List UInt16 :=
  (nackParts nack.bytes 0).flatMap NackGroup.sequenceNumbers

/-- A NACK asks for the numbers of the empty slots. -/
theorem requestedNumbers_sendNack (sends : Receiver.sendNack frame = some nack) :
    requestedNumbers nack = Receiver.missingSequences frame := by
  have grouped := grouped_frame frame
  have fits := grouped.length_le fun i member =>
    Nat.lt_trans (List.mem_range.mp (List.mem_filter.mp member).1) frame.packetCount.toNat_lt
  simp only [Receiver.sendNack] at sends
  split_ifs at sends
  obtain rfl := Option.some.inj sends
  rw [requestedNumbers, (nackMessage_spec fits).2, grouped.spell]
  rfl

/-- Whoever asks is an incomplete assembly. -/
private theorem asks_of_polledNack (asked : nack ∈ r.polledNack pollUs frame) :
    frame.packetCount ≠ 0 ∧ frame.complete = false ∧ Receiver.sendNack frame = some nack := by
  rw [Receiver.polledNack] at asked
  split_ifs at asked with asks
  · simp only [Receiver.asks, Bool.and_eq_true, Bool.not_eq_true', Bool.or_eq_false_iff,
      decide_eq_false_iff_not] at asks
    exact ⟨asks.1.1, asks.1.2, asked⟩
  · contradiction

/-- An assembly with all slots filled is complete. -/
private theorem complete_of_slots (stamped : whole.Stamped rtc) (gathers : Gathers whole frame)
    (all : ∀ (i : ℕ) (packet : Message), whole.packets[i]? = some packet → frame.packets[i]? = some (some packet)) :
    frame.packets = whole.packets.map some ∧ frame.complete = true := by
  have same : frame.packets = whole.packets.map some := by
    apply List.ext_getElem?
    intro i
    rw [List.getElem?_map]
    cases slot : whole.packets[i]? with
    | none =>
      rw [List.getElem?_eq_none_iff] at slot
      exact List.getElem?_eq_none_iff.mpr (gathers.slots ▸ slot)
    | some packet =>
      rw [all i packet slot]
      rfl
  have bounded := stamped.bounded
  have count : frame.packetCount.toNat = whole.packets.length := by
    rw [gathers.count, UInt16.toNat_ofNat_of_lt' (by simp only [UInt16.size]; omega)]
  have positive : frame.packetCount ≠ 0 := by
    intro zero
    rw [zero] at count
    exact stamped.nonempty (List.length_eq_zero_iff.mp count.symm)
  refine ⟨same, ?_⟩
  rw [FrameAssembly.complete, if_neg (by simp [positive, count, same]), same]
  simp

/-- When a poll has asked for the missing packets of a frame and the packets that the sender reads from the NACK
have come while the assembly stayed in the buffer, then the assembly is the sent frame, whole; and if it is its
turn, the next drain hands it on. -/
theorem nack_answered (demultiplexes : rtc.DemultiplexesBySecondByte) {senderRun : List SenderCall}
    (stampable : ∀ call ∈ senderRun, call.Stampable rtc) (inARow : ∀ call ∈ senderRun, call.InARow rtc)
    (short : (sentFrames rtc {} senderRun).length < 2 ^ 32) (recoveryTimeoutMs : ℤ)
    (delivered : ∀ event ∈ before ++ .poll pollUs :: rest, Delivered (sentFrames rtc {} senderRun) event)
    (positive : ∀ event ∈ before ++ .poll pollUs :: rest, Receiver.PositiveTime event)
    (found : (stateBehind rtc recoveryTimeoutMs before).frames[id]? = some frame)
    (asked : nack ∈ (stateBehind rtc recoveryTimeoutMs before).polledNack pollUs frame)
    (kept : KeptSince rtc recoveryTimeoutMs before (.poll pollUs :: rest) id frame.firstSeenUs)
    (later : ∀ atUs message, .packet atUs message ∈ rest → frame.firstSeenUs < atUs) :
    ∃ whole ∈ sentFrames rtc {} senderRun, whole.frameId = id ∧
      ((∀ packet ∈ whole.packets, (readFrameMetadata rtc packet).isSome = true) →
        (∀ packet ∈ whole.packets, Rtp.seqNumber packet.bytes ∈ requestedNumbers nack → packet ∈ processed rest) →
        ∃ after, (stateBehind rtc recoveryTimeoutMs (before ++ .poll pollUs :: rest)).frames[id]? = some after ∧
          after.packets = whole.packets.map some ∧ after.complete = true ∧
          ((stateBehind rtc recoveryTimeoutMs (before ++ .poll pollUs :: rest)).stats.synchronized = true →
            (stateBehind rtc recoveryTimeoutMs (before ++ .poll pollUs :: rest)).nextOutputFrameId = some id →
            ∀ drainUs, after ∈ ((stateBehind rtc recoveryTimeoutMs
              (before ++ .poll pollUs :: rest)).drainCompleteFrames drainUs).2.frames)) := by
  have wire := wire_sentFrames demultiplexes stampable short
  have numbered := numberedFrom_sentFrames (s := {}) demultiplexes stampable inARow
  obtain ⟨opened, incomplete, sends⟩ := asks_of_polledNack asked
  have assembled := assembled_run wire numbered recoveryTimeoutMs
    (fun event member => delivered event (List.mem_append_left _ member))
    fun event member => positive event (List.mem_append_left _ member)
  obtain ⟨whole, member, same, gathers⟩ := (assembled.faithful.assembles id frame found).resolve_left
    fun empty => opened empty.1
  obtain rfl := same.trans (assembled.faithful.labelled id frame found).1
  refine ⟨whole, member, rfl, fun readable answered => ?_⟩
  obtain ⟨after, present, _, has⟩ := hasSince_run wire numbered member readable delivered positive found opened kept
    fun atUs message inside => later atUs message (List.mem_of_ne_of_mem (by simp) inside)
  have stamped := wire.stamped whole member
  have all : ∀ (i : ℕ) (packet : Message), whole.packets[i]? = some packet →
      after.packets[i]? = some (some packet) := by
    intro i packet slot
    apply has.slots i packet slot
    have inside := (List.getElem?_eq_some_iff.mp slot).1
    have there : i < frame.packets.length := gathers.slots ▸ inside
    cases filled : frame.packets[i] with
    | some own =>
      have held : frame.packets[i]? = some (some own) := by rw [List.getElem?_eq_getElem there, filled]
      have placed := gathers.packets i own held
      rw [slot] at placed
      exact .inl (Option.some.inj placed ▸ held)
    | none =>
      refine .inr (answered packet (List.mem_of_getElem? slot) ?_)
      have bounded := stamped.bounded
      have count : frame.packetCount.toNat = whole.packets.length := by
        rw [gathers.count, UInt16.toNat_ofNat_of_lt' (by simp only [UInt16.size]; omega)]
      rw [requestedNumbers_sendNack sends, assembled.counts _ frame found opened whole member rfl i packet slot]
      refine List.mem_map_of_mem (List.mem_filter.mpr ⟨List.mem_range.mpr (by omega), ?_⟩)
      rw [← List.getElem_eq_getD (h := there), filled]
      rfl
  have last := assembled_run wire numbered recoveryTimeoutMs delivered positive
  obtain ⟨packets, complete⟩ := complete_of_slots stamped
    (last.gathers wire member present has.opened) all
  refine ⟨after, present, packets, complete, fun sync cursor drainUs => ?_⟩
  obtain ⟨more, _, step⟩ := Receiver.drain_complete drainUs sync cursor present complete
  rw [step]
  exact List.mem_cons_self ..

/-- A keyframe, and a delta frame of three packets whose numbers wrap around. -/
def wrappingDelta : List SenderCall :=
  [.setOutgoingFrame 1 true, .outgoing [some (Rtp.packet 65534 true [1])], .setOutgoingFrame 1 false,
    .outgoing [some (Rtp.packet 65535 false [2]), some (Rtp.packet 0 false [3]), some (Rtp.packet 1 true [4])]]

private theorem stampable_wrappingDelta : ∀ call ∈ wrappingDelta, call.Stampable Rtc.rfc5761 := by
  intro call member
  simp only [wrappingDelta, List.mem_cons, List.not_mem_nil, or_false] at member
  rcases member with rfl | rfl | rfl | rfl
  · trivial
  · exact stampable_packet 65534 true 1
  · trivial
  · refine ⟨List.length_filter_le _ _ |>.trans (by decide), fun message inside _ => ?_⟩
    simp only [List.mem_cons, Option.some.injEq, List.not_mem_nil, or_false] at inside
    rcases inside with rfl | rfl | rfl <;> exact bare_packet _ _ _

private theorem numberedFrom_of_all {first : UInt16} {packets : List Message}
    (all : packets.map (fun packet => Rtp.seqNumber packet.bytes) =
      (List.range packets.length).map fun i => first + UInt16.ofNat i) : NumberedFrom first packets := by
  intro i packet found
  have inside := (List.getElem?_eq_some_iff.mp found).1
  have here := congrArg (fun numbers => numbers[i]?) all
  simp only [List.getElem?_map, found, List.getElem?_range inside, Option.map_some, Option.some.injEq] at here
  exact here

private theorem inARow_wrappingDelta : ∀ call ∈ wrappingDelta, call.InARow Rtc.rfc5761 := by
  intro call member
  simp only [wrappingDelta, List.mem_cons, List.not_mem_nil, or_false] at member
  rcases member with rfl | rfl | rfl | rfl
  · trivial
  · exact ⟨65534, numberedFrom_of_all (by decide +kernel)⟩
  · trivial
  · exact ⟨65535, numberedFrom_of_all (by decide +kernel)⟩

/-- The packets of the delta frame on the wire. -/
private def deltaPacket (index : ℕ) (bare : Message) : Message :=
  addFrameMetadata Rtc.rfc5761 ⟨1, 2, UInt16.ofNat index, 3, false⟩ bare

/-- The keyframe is handed on, and of the delta frame the second packet is lost. -/
def secondLost : List ReceiverEvent :=
  [.bindSend, .packet 1000 (addFrameMetadata Rtc.rfc5761 ⟨1, 1, 0, 1, true⟩ (Rtp.packet 65534 true [1])), .drain 1000,
    .packet 2000 (deltaPacket 0 (Rtp.packet 65535 false [2])), .packet 2000 (deltaPacket 2 (Rtp.packet 1 true [4])),
    .drain 2000]

/-- The packet that is sent again. -/
def sentAgain : List ReceiverEvent := [.packet 3000 (deltaPacket 1 (Rtp.packet 0 false [3]))]

/-- An assembly that is there at every cut stays. -/
theorem keptSince_of_cuts {events later : List ReceiverEvent} {seenUs : ℤ}
    (cuts : ∀ n < later.length + 1,
      (stateBehind rtc recoveryTimeoutMs (events ++ later.take n)).frames[id]?.map FrameAssembly.firstSeenUs =
        some seenUs) : KeptSince rtc recoveryTimeoutMs events later id seenUs := by
  rintro first second rfl
  have cut := cuts first.length (by rw [List.length_append]; omega)
  rw [List.take_left] at cut
  exact Option.map_eq_some_iff.mp cut

/-- The NACK asks for the one packet behind the wrap, and with it the frame goes out. -/
theorem nack_answered_wrapping : ∃ whole ∈ sentFrames Rtc.rfc5761 {} wrappingDelta, whole.frameId = 2 ∧
    ∃ after, (stateBehind Rtc.rfc5761 1000 (secondLost ++ .poll 2500 :: sentAgain)).frames[(2 : UInt32)]? =
        some after ∧ after.packets = whole.packets.map some ∧ after ∈ ((stateBehind Rtc.rfc5761 1000
          (secondLost ++ .poll 2500 :: sentAgain)).drainCompleteFrames 3000).2.frames := by
  have kept : KeptSince Rtc.rfc5761 1000 secondLost (.poll 2500 :: sentAgain) 2 2000 :=
    keptSince_of_cuts (by decide +kernel)
  obtain ⟨frame, found, seen⟩ := kept [] _ rfl
  rw [List.append_nil] at found
  have asks : ((stateBehind Rtc.rfc5761 1000 secondLost).frames[(2 : UInt32)]?.bind
      ((stateBehind Rtc.rfc5761 1000 secondLost).polledNack 2500)).any (fun nack => decide
        (requestedNumbers nack = [0])) = true := by decide +kernel
  rw [found, Option.bind_some, Option.any_eq_true] at asks
  obtain ⟨nack, asked, numbers⟩ := asks
  rw [decide_eq_true_eq] at numbers
  have packets : ∀ event ∈ secondLost ++ .poll 2500 :: sentAgain, ∀ message ∈ packetOf event,
      ∃ frame ∈ sentFrames Rtc.rfc5761 {} wrappingDelta, message ∈ frame.packets := by decide +kernel
  have readings : ∀ event ∈ secondLost ++ .poll 2500 :: sentAgain, ∀ atUs ∈ readingOf event, 0 < atUs := by
    decide +kernel
  have wholes : ∀ whole ∈ sentFrames Rtc.rfc5761 {} wrappingDelta, whole.frameId = 2 →
      ∀ packet ∈ whole.packets, (readFrameMetadata Rtc.rfc5761 packet).isSome = true ∧
        (Rtp.seqNumber packet.bytes ∈ [0] → packet ∈ processed sentAgain) := by decide +kernel
  have delivered : ∀ event ∈ secondLost ++ .poll 2500 :: sentAgain,
      Delivered (sentFrames Rtc.rfc5761 {} wrappingDelta) event := by
    rintro event inside atUs message rfl
    exact packets _ inside message rfl
  have positive : ∀ event ∈ secondLost ++ .poll 2500 :: sentAgain, Receiver.PositiveTime event := by
    intro event inside
    cases event with
    | packet atUs message => exact readings _ inside atUs rfl
    | bindSend | drain | poll | invalidateSync | recordPliSent => trivial
  have later : ∀ atUs message, .packet atUs message ∈ sentAgain → frame.firstSeenUs < atUs := by
    intro atUs message inside
    obtain ⟨rfl, _⟩ := ReceiverEvent.packet.inj (List.mem_singleton.mp inside)
    rw [seen]
    decide
  obtain ⟨whole, member, same, answer⟩ := nack_answered Rtc.rfc5761_demultiplexes stampable_wrappingDelta
    inARow_wrappingDelta (by decide +kernel) 1000 delivered positive found asked (seen ▸ kept) later
  obtain ⟨after, present, parts, _, out⟩ := answer (fun packet own => (wholes whole member same packet own).1)
    fun packet own number => (wholes whole member same packet own).2 (numbers ▸ number)
  exact ⟨whole, member, same, after, present, parts, out (by decide +kernel) (by decide +kernel) 3000⟩

end WeakNetVideo
