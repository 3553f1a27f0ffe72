import WeakNetVideo.Model.Channel
import WeakNetVideo.Proofs.FrameMetadata

/-! # What a sender puts on the wire

The frames of a run have consecutive ids, and a packet of one of them reads back as its stamp or as
nothing.
-/

namespace WeakNetVideo

/-- What the packets of a frame read back as. -/
structure SentFrame.Stamped (rtc : Rtc) (frame : SentFrame) : Prop where
  nonempty : frame.packets ≠ []
  bounded : frame.packets.length ≤ 65535
  media : ∀ packet ∈ frame.packets, isRtp rtc (some packet) = true
  stamps : ∀ (i : ℕ) (packet : Message), frame.packets[i]? = some packet →
    readFrameMetadata rtc packet = some (frame.stamp i) ∨ readFrameMetadata rtc packet = none

variable {rtc : Rtc}

/-! ## Bare packets -/

theorem bare_packet (sequence : UInt16) (last : Bool) (payload : Byte) :
    (Rtp.packet sequence last [payload]).bytes.length ≤ 65535 ∧
      NoFrameInfo (Rtp.packet sequence last [payload]) := by
  refine ⟨by simp [Rtp.packet], fun body read => ?_⟩
  have plain : Rtp.extension (Rtp.packet sequence last [payload]).bytes = false := by
    simp only [Rtp.extension, Rtp.byteAt, Rtp.packet, List.cons_append, List.getD_cons_zero]
    decide
  simp [readableExtension, plain] at read

theorem stampable_packet (sequence : UInt16) (last : Bool) (payload : Byte) :
    (SenderCall.outgoing [some (Rtp.packet sequence last [payload])]).Stampable rtc := by
  refine ⟨?_, fun message inside _ => ?_⟩
  · have short := List.length_filter_le (isRtp rtc) [some (Rtp.packet sequence last [payload])]
    simp only [List.length_singleton] at short
    omega
  · simp only [List.mem_singleton, Option.some.injEq] at inside
    subst inside
    exact bare_packet sequence last payload

/-! ## Stamping a batch -/

private theorem media_some {pointer : MessagePtr} (media : isRtp rtc pointer = true) :
    ∃ message, pointer = some message := by
  cases pointer with
  | none => simp [isRtp] at media
  | some message => exact ⟨message, rfl⟩

private theorem length_present_media (messages : List MessagePtr) :
    (present (messages.filter (isRtp rtc))).length = (messages.filter (isRtp rtc)).length := by
  induction messages with
  | nil => rfl
  | cons pointer rest ih =>
    rw [List.filter_cons]
    split_ifs with media
    · obtain ⟨message, rfl⟩ := media_some media
      simpa [present] using ih
    · exact ih

theorem mem_present_media {messages : List MessagePtr} {message : Message}
    (member : message ∈ present (messages.filter (isRtp rtc))) :
    some message ∈ messages ∧ isRtp rtc (some message) = true := by
  obtain ⟨pointer, inside, same⟩ := List.mem_filterMap.mp member
  obtain rfl : pointer = some message := same
  exact List.mem_filter.mp inside

/-- Where every index is below the count, each media packet carries its own stamp. -/
private theorem present_stampMessages (demultiplexes : rtc.DemultiplexesBySecondByte)
    (stamp : UInt16 → FrameMetadata) (messages : List MessagePtr) {count index : ℕ}
    (fits : index + (messages.filter (isRtp rtc)).length ≤ count) :
    present ((Sender.stampMessages rtc stamp count index messages).filter (isRtp rtc)) =
      (present (messages.filter (isRtp rtc))).mapIdx fun i message =>
        addFrameMetadata rtc (stamp (UInt16.ofNat (index + i))) message := by
  induction messages generalizing index with
  | nil => rfl
  | cons pointer rest ih =>
    simp only [Sender.stampMessages]
    rw [List.filter_cons] at fits
    split_ifs at fits ⊢ with media within
    · obtain ⟨message, rfl⟩ := media_some media
      have still := isRtp_addFrameMetadata demultiplexes (stamp (UInt16.ofNat index)) media
      rw [List.length_cons] at fits
      have tail := @ih (index + 1) (by omega)
      rw [Option.map_some, List.filter_cons, if_pos still, List.filter_cons, if_pos media]
      simp only [present, List.filterMap_cons, id, List.mapIdx_cons, Nat.add_zero] at tail ⊢
      rw [tail]
      simp only [Nat.add_assoc, Nat.add_comm 1]
    · rw [List.length_cons] at fits
      omega
    · rw [List.filter_cons, if_neg media, ih fits, List.filter_cons, if_neg media]

/-- The packets of a frame are the media packets of its batch, each under its stamp. -/
theorem sentFrame_outgoing (demultiplexes : rtc.DemultiplexesBySecondByte) {s : Sender}
    {messages : List MessagePtr} {frame : SentFrame}
    (small : (messages.filter (isRtp rtc)).length ≤ 65535)
    (sent : s.sentFrame rtc (.outgoing messages) = some frame) :
    frame.epoch = s.epoch ∧ frame.frameId = s.nextFrameId ∧ frame.keyframe = s.nextFrameKeyframe ∧
      frame.packets = (present (messages.filter (isRtp rtc))).mapIdx
        (fun i message => addFrameMetadata rtc (frame.stamp i) message) ∧
      frame.packets.length = (messages.filter (isRtp rtc)).length ∧ frame.packets ≠ [] := by
  have nonempty : ((messages.filter (isRtp rtc)).isEmpty = true) = False := by
    rw [eq_iff_iff, iff_false]
    intro empty
    simp only [Sender.sentFrame, empty, if_true] at sent
    contradiction
  have packets := present_stampMessages demultiplexes
    (s.stamp (messages.filter (isRtp rtc)).length) messages (Nat.le_of_eq (Nat.zero_add _))
  simp only [Sender.sentFrame, Sender.senderOutgoing, nonempty, if_false, Nat.min_eq_left small,
    Option.some.injEq, packets, Nat.zero_add] at sent
  subst sent
  have length := @length_present_media rtc messages
  refine ⟨rfl, rfl, rfl, ?_, ?_, ?_⟩
  · simp only [SentFrame.stamp, List.length_mapIdx, length]
    rfl
  · simp only [List.length_mapIdx, length]
  · intro empty
    have none := congrArg List.length empty
    simp only [List.length_mapIdx, length, List.length_nil] at none
    rw [List.isEmpty_iff_length_eq_zero, none] at nonempty
    simp at nonempty

theorem stamped_sentFrame (demultiplexes : rtc.DemultiplexesBySecondByte) {s : Sender}
    {call : SenderCall} {frame : SentFrame} (stampable : call.Stampable rtc)
    (sent : s.sentFrame rtc call = some frame) : frame.Stamped rtc := by
  cases call with
  | setOutgoingFrame epoch keyframe => simp [Sender.sentFrame] at sent
  | outgoing messages =>
    obtain ⟨_, _, _, packets, length, nonempty⟩ := sentFrame_outgoing demultiplexes stampable.1 sent
    have origin : ∀ (i : ℕ) (packet : Message), frame.packets[i]? = some packet →
        ∃ message, some message ∈ messages ∧ isRtp rtc (some message) = true ∧
          packet = addFrameMetadata rtc (frame.stamp i) message := by
      intro i packet found
      rw [packets, List.getElem?_mapIdx] at found
      obtain ⟨message, there, same⟩ := Option.map_eq_some_iff.mp found
      obtain ⟨member, media⟩ := mem_present_media (List.mem_of_getElem? there)
      exact ⟨message, member, media, same.symm⟩
    refine ⟨nonempty, by rw [length]; exact stampable.1, fun packet member => ?_, fun i packet found => ?_⟩
    · obtain ⟨i, found⟩ := List.mem_iff_getElem?.mp member
      obtain ⟨message, _, media, rfl⟩ := origin i packet found
      exact isRtp_addFrameMetadata demultiplexes _ media
    · obtain ⟨message, member, media, rfl⟩ := origin i packet found
      obtain ⟨small, clear⟩ := stampable.2 message member media
      exact readFrameMetadata_addFrameMetadata demultiplexes _ media small clear

/-! ## The frames of a run -/

theorem stamped_sentFrames (demultiplexes : rtc.DemultiplexesBySecondByte) {s : Sender}
    {calls : List SenderCall} (stampable : ∀ call ∈ calls, call.Stampable rtc) :
    ∀ frame ∈ sentFrames rtc s calls, frame.Stamped rtc := by
  induction calls generalizing s with
  | nil => simp [sentFrames]
  | cons call calls ih =>
    intro frame member
    rcases List.mem_append.mp member with here | there
    · exact stamped_sentFrame demultiplexes (stampable call (List.mem_cons_self ..))
        (Option.mem_toList.mp here)
    · exact ih (fun other inside => stampable other (List.mem_cons_of_mem _ inside)) frame there

/-- A call sends one frame under the next id, or none and keeps the id. -/
private theorem sentFrame_cases (rtc : Rtc) (s : Sender) (call : SenderCall) :
    (s.sentFrame rtc call = none ∧ (s.call rtc call).1.nextFrameId = s.nextFrameId) ∨
      ∃ frame, s.sentFrame rtc call = some frame ∧ frame.frameId = s.nextFrameId ∧
        (s.call rtc call).1.nextFrameId = s.nextFrameId + 1 := by
  cases call with
  | setOutgoingFrame epoch keyframe => exact .inl ⟨rfl, rfl⟩
  | outgoing messages =>
    simp only [Sender.sentFrame, Sender.call, Sender.senderOutgoing]
    split_ifs
    · exact .inl ⟨rfl, rfl⟩
    · exact .inr ⟨_, rfl, rfl, rfl⟩

/-- The ids of a run count up from the sender's next id. -/
theorem frameId_sentFrames (rtc : Rtc) (s : Sender) (calls : List SenderCall) (i : ℕ)
    (frame : SentFrame) (found : (sentFrames rtc s calls)[i]? = some frame) :
    frame.frameId = s.nextFrameId + UInt32.ofNat i := by
  induction calls generalizing s i with
  | nil => simp [sentFrames] at found
  | cons call calls ih =>
    simp only [sentFrames] at found
    rcases sentFrame_cases rtc s call with ⟨silent, same⟩ | ⟨first, sent, id, next⟩
    · rw [silent] at found
      rw [← same]
      exact ih _ i found
    · rw [sent] at found
      cases i with
      | zero =>
        obtain rfl : first = frame := by simpa using found
        rw [id]
        exact (UInt32.add_zero _).symm
      | succ i =>
        rw [ih _ i (by simpa using found), next, UInt32.add_assoc, UInt32.ofNat_add,
          UInt32.add_comm 1]
        rfl

/-- In a run of fewer than `2 ^ 32` frames the ids are pairwise different. -/
theorem eq_of_frameId {s : Sender} {calls : List SenderCall}
    (short : (sentFrames rtc s calls).length < 2 ^ 32) {left right : SentFrame}
    (first : left ∈ sentFrames rtc s calls) (second : right ∈ sentFrames rtc s calls)
    (same : left.frameId = right.frameId) : left = right := by
  obtain ⟨i, foundI⟩ := List.mem_iff_getElem?.mp first
  obtain ⟨j, foundJ⟩ := List.mem_iff_getElem?.mp second
  have boundI := (List.getElem?_eq_some_iff.mp foundI).1
  have boundJ := (List.getElem?_eq_some_iff.mp foundJ).1
  rw [frameId_sentFrames rtc s calls i left foundI, frameId_sentFrames rtc s calls j right foundJ,
    UInt32.add_right_inj] at same
  have toNat := congrArg UInt32.toNat same
  rw [UInt32.toNat_ofNat_of_lt' (boundI.trans short), UInt32.toNat_ofNat_of_lt' (boundJ.trans short)] at toNat
  rw [toNat, foundJ] at foundI
  exact (Option.some.inj foundI).symm

/-- The ids of a run from the start never wrap to zero. -/
theorem frameId_ne_zero {calls : List SenderCall}
    (short : (sentFrames rtc {} calls).length < 2 ^ 32) {frame : SentFrame}
    (member : frame ∈ sentFrames rtc {} calls) : frame.frameId ≠ 0 := by
  obtain ⟨i, found⟩ := List.mem_iff_getElem?.mp member
  have bound := (List.getElem?_eq_some_iff.mp found).1
  rw [frameId_sentFrames rtc {} calls i frame found]
  intro zero
  have toNat := congrArg UInt32.toNat zero
  rw [UInt32.toNat_add, UInt32.toNat_ofNat_of_lt' (bound.trans short)] at toNat
  change (1 + i) % 2 ^ 32 = 0 at toNat
  omega

end WeakNetVideo
