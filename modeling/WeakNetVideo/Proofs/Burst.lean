import WeakNetVideo.Proofs.Assembly
import Mathlib.Data.List.Nodup

/-! # A burst of frames on its way into the buffer

A burst is a run of consecutive frames of one epoch, few enough for the buffer, whose packets all carry
their stamps. Its progress is which packets have arrived and how many frames have been handed on. A
receiver collects the burst when its buffer holds exactly the frames that are not yet handed on and of
which a packet has arrived, each with exactly the packets that have arrived.
-/

namespace WeakNetVideo

structure Burst (rtc : Rtc) (epoch : UInt16) (first : UInt32) (frames : List SentFrame) : Prop where
  few : frames.length < maxBufferedFrames
  stamped : ∀ frame ∈ frames, frame.Stamped rtc
  readable : ∀ frame ∈ frames, ∀ packet ∈ frame.packets, (readFrameMetadata rtc packet).isSome = true
  epoch : ∀ frame ∈ frames, frame.epoch = epoch
  ids : ∀ (j : ℕ) (frame : SentFrame), frames[j]? = some frame →
    frame.frameId = first + UInt32.ofNat j

/-- Different offsets below the modulus are different ids. -/
theorem eq_of_offset {first : UInt32} {i j : ℕ} (boundI : i < 2 ^ 32) (boundJ : j < 2 ^ 32)
    (same : first + UInt32.ofNat i = first + UInt32.ofNat j) : i = j := by
  have toNat := congrArg UInt32.toNat ((UInt32.add_right_inj first).mp same)
  rwa [UInt32.toNat_ofNat_of_lt' boundI, UInt32.toNat_ofNat_of_lt' boundJ] at toNat

/-- Below an offset that has not wrapped, offsets count up. -/
theorem toNat_offset {first : UInt32} {low k high : ℕ} (lower : low ≤ k) (upper : k ≤ high)
    (bound : high < 2 ^ 32) (order : first + UInt32.ofNat low ≤ first + UInt32.ofNat high) :
    (first + UInt32.ofNat k).toNat = (first + UInt32.ofNat low).toNat + (k - low) := by
  have shift : ∀ n : ℕ, low ≤ n → first + UInt32.ofNat n =
      first + UInt32.ofNat low + UInt32.ofNat (n - low) := by
    intro n above
    rw [UInt32.add_assoc, ← UInt32.ofNat_add, Nat.add_sub_cancel' above]
  rw [shift high (by omega)] at order
  rw [shift k lower]
  generalize first + UInt32.ofNat low = next at *
  have width := UInt32.toNat_sub_of_le _ _ order
  have last := (next + UInt32.ofNat (high - low)).toNat_lt
  have least := UInt32.le_iff_toNat_le.mp order
  rw [UInt32.add_comm, UInt32.add_sub_cancel, UInt32.add_comm,
    UInt32.toNat_ofNat_of_lt' (by simp only [UInt32.size]; omega)] at width
  rw [UInt32.toNat_add, UInt32.toNat_ofNat_of_lt' (by simp only [UInt32.size]; omega),
    Nat.mod_eq_of_lt (by omega)]

/-- What lies between two offsets without a wrap is an offset between them. -/
theorem exists_offset {first id : UInt32} {low high : ℕ} (order : low ≤ high) (bound : high < 2 ^ 32)
    (lower : first + UInt32.ofNat low ≤ id) (upper : id < first + UInt32.ofNat high) :
    ∃ k, low ≤ k ∧ k < high ∧ id = first + UInt32.ofNat k := by
  have unwrapped := UInt32.le_of_lt (UInt32.lt_of_le_of_lt lower upper)
  have top := toNat_offset order (Nat.le_refl high) bound unwrapped
  have above := UInt32.le_iff_toNat_le.mp lower
  have below := UInt32.lt_iff_toNat_lt.mp upper
  refine ⟨low + (id.toNat - (first + UInt32.ofNat low).toNat), by omega, by omega, ?_⟩
  rw [← UInt32.toNat_inj, toNat_offset (by omega) (by omega) bound unwrapped]
  omega

/-- An offset between two offsets without a wrap lies between them. -/
theorem offset_between {first : UInt32} {low k high : ℕ} (lower : low ≤ k) (upper : k < high)
    (bound : high < 2 ^ 32) (order : first + UInt32.ofNat low ≤ first + UInt32.ofNat high) :
    first + UInt32.ofNat low ≤ first + UInt32.ofNat k ∧
      first + UInt32.ofNat k < first + UInt32.ofNat high := by
  have middle := toNat_offset lower (Nat.le_of_lt upper) bound order
  have top := toNat_offset (Nat.le_trans lower (Nat.le_of_lt upper)) (Nat.le_refl high) bound order
  rw [UInt32.le_iff_toNat_le, UInt32.lt_iff_toNat_lt]
  omega

variable {rtc : Rtc} {epoch : UInt16} {first : UInt32} {frames : List SentFrame}

/-- Fewer than 64 consecutive frames of a sender's run, all of one epoch and with every packet stamped,
are a burst. -/
theorem burst_sentFrames (demultiplexes : rtc.DemultiplexesBySecondByte) {s : Sender}
    {calls : List SenderCall} (stampable : ∀ call ∈ calls, call.Stampable rtc) {start count : ℕ}
    (few : count < maxBufferedFrames)
    (readable : ∀ frame ∈ ((sentFrames rtc s calls).drop start).take count,
      ∀ packet ∈ frame.packets, (readFrameMetadata rtc packet).isSome = true)
    (current : ∀ frame ∈ ((sentFrames rtc s calls).drop start).take count, frame.epoch = epoch) :
    Burst rtc epoch (s.nextFrameId + UInt32.ofNat start)
      (((sentFrames rtc s calls).drop start).take count) := by
  refine ⟨Nat.lt_of_le_of_lt (List.length_take_le _ _) few, fun frame member =>
    stamped_sentFrames demultiplexes stampable frame
      (List.mem_of_mem_drop (List.mem_of_mem_take member)), readable, current, fun j frame found => ?_⟩
  have inside := (List.getElem?_eq_some_iff.mp found).1
  rw [List.length_take] at inside
  have bound : j < count := by omega
  rw [List.getElem?_take_of_lt bound, List.getElem?_drop] at found
  rw [frameId_sentFrames rtc s calls _ frame found, UInt32.ofNat_add, UInt32.add_assoc]

/-- A frame by itself is a burst. -/
theorem burst_single {sent : List SentFrame} {single : SentFrame} (wire : Wire rtc sent) (member : single ∈ sent)
    (readable : ∀ packet ∈ single.packets, (readFrameMetadata rtc packet).isSome = true) :
    Burst rtc single.epoch single.frameId [single] := by
  refine ⟨Nat.one_lt_two_pow (n := 6) (by decide), ?_, ?_, ?_, fun j frame found => ?_⟩
  · exact fun frame inside => List.mem_singleton.mp inside ▸ wire.stamped single member
  · exact fun frame inside => List.mem_singleton.mp inside ▸ readable
  · exact fun frame inside => congrArg SentFrame.epoch (List.mem_singleton.mp inside)
  · have bound := (List.getElem?_eq_some_iff.mp found).1
    obtain rfl : j = 0 := by simpa using bound
    obtain rfl := Option.some.inj found
    exact (UInt32.add_zero _).symm

namespace Burst

theorem index_lt (burst : Burst rtc epoch first frames) {j : ℕ} {sent : SentFrame}
    (found : frames[j]? = some sent) : j < 64 :=
  Nat.lt_trans (List.getElem?_eq_some_iff.mp found).1 burst.few

theorem packet_lt (burst : Burst rtc epoch first frames) {sent : SentFrame} (member : sent ∈ frames)
    {i : ℕ} {packet : Message} (slot : sent.packets[i]? = some packet) : i < 2 ^ 16 := by
  have inside := (List.getElem?_eq_some_iff.mp slot).1
  have bounded := (burst.stamped sent member).bounded
  omega

/-- Every packet of a burst is processed under its stamp. -/
theorem validMetadata (burst : Burst rtc epoch first frames) {sent : SentFrame}
    (member : sent ∈ frames) {i : ℕ} {packet : Message} (slot : sent.packets[i]? = some packet) :
    Receiver.validMetadata rtc packet = some (sent.stamp i) := by
  have inside := (List.getElem?_eq_some_iff.mp slot).1
  have bounded := (burst.stamped sent member).bounded
  have count : (UInt16.ofNat sent.packets.length).toNat = sent.packets.length :=
    UInt16.toNat_ofNat_of_lt' (by simp only [UInt16.size]; omega)
  have index : (UInt16.ofNat i).toNat = i :=
    UInt16.toNat_ofNat_of_lt' (by simp only [UInt16.size]; omega)
  have read : readFrameMetadata rtc packet = some (sent.stamp i) := by
    rcases (burst.stamped sent member).stamps i packet slot with read | refused
    · exact read
    · have carried := burst.readable sent member packet (List.mem_of_getElem? slot)
      rw [refused] at carried
      contradiction
  have positive : UInt16.ofNat sent.packets.length ≠ 0 := by
    intro zero
    rw [zero] at count
    change 0 = _ at count
    omega
  have below : UInt16.ofNat i < UInt16.ofNat sent.packets.length := by
    rw [UInt16.lt_iff_toNat_lt, count, index]
    exact inside
  simp only [Receiver.validMetadata, read, SentFrame.stamp, Option.filter_some, ne_eq, positive,
    not_false_eq_true, decide_true, below, Bool.and_self, if_true]

/-- A packet has one place in a burst. -/
theorem place_unique (burst : Burst rtc epoch first frames) {j j' i i' : ℕ} {sent sent' : SentFrame}
    {packet : Message} (found : frames[j]? = some sent) (slot : sent.packets[i]? = some packet)
    (found' : frames[j']? = some sent') (slot' : sent'.packets[i']? = some packet) :
    j = j' ∧ i = i' := by
  have member := List.mem_of_getElem? found
  have member' := List.mem_of_getElem? found'
  have same := Option.some.inj ((burst.validMetadata member slot).symm.trans
    (burst.validMetadata member' slot'))
  have ids : sent.frameId = sent'.frameId := congrArg FrameMetadata.frameId same
  have indices : UInt16.ofNat i = UInt16.ofNat i' := congrArg FrameMetadata.packetIndex same
  rw [burst.ids j sent found, burst.ids j' sent' found'] at ids
  have bound := burst.index_lt found
  have bound' := burst.index_lt found'
  refine ⟨eq_of_offset (by omega) (by omega) ids, ?_⟩
  have toNat := congrArg UInt16.toNat indices
  rwa [UInt16.toNat_ofNat_of_lt' (burst.packet_lt member slot),
    UInt16.toNat_ofNat_of_lt' (burst.packet_lt member' slot')] at toNat

/-- No packet occurs twice in a burst. -/
theorem nodup (burst : Burst rtc epoch first frames) :
    (frames.flatMap SentFrame.packets).Nodup := by
  rw [List.nodup_flatMap]
  constructor
  · intro sent member
    obtain ⟨j, found⟩ := List.mem_iff_getElem?.mp member
    rw [List.nodup_iff_getElem?_ne_getElem?]
    intro i i' below inside same
    have slot := List.getElem?_eq_getElem inside
    have places := burst.place_unique found (same.trans slot) found slot
    omega
  · rw [List.pairwise_iff_getElem]
    intro j j' boundJ boundJ' below packet here there
    obtain ⟨i, slot⟩ := List.mem_iff_getElem?.mp here
    obtain ⟨i', slot'⟩ := List.mem_iff_getElem?.mp there
    have places := burst.place_unique (List.getElem?_eq_getElem boundJ) slot
      (List.getElem?_eq_getElem boundJ') slot'
    omega

end Burst

/-! ## Frames under collection -/

/-- A packet of the frame has arrived. -/
def SentFrame.Started (sent : SentFrame) (arrived : List Message) : Prop :=
  ∃ packet ∈ sent.packets, packet ∈ arrived

/-- Every packet of the frame has arrived. -/
def SentFrame.whole (sent : SentFrame) (arrived : List Message) : Bool :=
  sent.packets.all fun packet => packet ∈ arrived

/-- The slots of a frame, filled with the packets that have arrived. -/
def SentFrame.slots (sent : SentFrame) (arrived : List Message) : List MessagePtr :=
  sent.packets.map fun packet => if packet ∈ arrived then some packet else none

/-- A buffered frame with exactly the packets that have arrived. -/
structure Collects (sent : SentFrame) (arrived : List Message) (frame : FrameAssembly) : Prop where
  frameId : frame.frameId = sent.frameId
  epoch : frame.epoch = sent.epoch
  keyframe : frame.keyframe = sent.keyframe
  count : frame.packetCount = UInt16.ofNat sent.packets.length
  packets : frame.packets = sent.slots arrived

theorem slots_of_not_mem {sent : SentFrame} {arrived : List Message} {message : Message}
    (other : message ∉ sent.packets) : sent.slots (message :: arrived) = sent.slots arrived := by
  apply List.map_congr_left
  intro packet member
  have different : packet ≠ message := by
    rintro rfl
    exact other member
  simp only [List.mem_cons, different, false_or]

theorem slots_of_whole {sent : SentFrame} {arrived : List Message} (whole : sent.whole arrived = true) :
    sent.slots arrived = sent.packets.map some := by
  apply List.map_congr_left
  intro packet member
  rw [if_pos (of_decide_eq_true (List.all_eq_true.mp whole packet member))]

theorem slots_of_not_started {sent : SentFrame} {arrived : List Message}
    (untouched : ¬sent.Started arrived) :
    sent.slots arrived = List.replicate sent.packets.length none := by
  rw [SentFrame.slots, ← List.map_const']
  apply List.map_congr_left
  intro packet member
  rw [if_neg fun there => untouched ⟨packet, member, there⟩]

/-- Filling the packet's slot. -/
theorem slots_set (burst : Burst rtc epoch first frames) {j i : ℕ} {sent : SentFrame}
    {message : Message} {arrived : List Message} (found : frames[j]? = some sent)
    (slot : sent.packets[i]? = some message) :
    (sent.slots arrived).set i (some message) = sent.slots (message :: arrived) := by
  apply List.ext_getElem?
  intro k
  simp only [SentFrame.slots, List.getElem?_set, List.length_map, List.getElem?_map]
  have inside := (List.getElem?_eq_some_iff.mp slot).1
  split_ifs with here
  · subst here
    rw [slot]
    simp
  · cases other : sent.packets[k]? with
    | none => rfl
    | some packet =>
      have different : packet ≠ message := by
        rintro rfl
        exact here (burst.place_unique found slot found other).2
      simp only [Option.map_some, List.mem_cons, different, false_or]

/-- A collected frame is complete when the frame has arrived whole. -/
theorem Collects.complete_iff {sent : SentFrame} {arrived : List Message} {frame : FrameAssembly}
    (stamped : sent.Stamped rtc) (collects : Collects sent arrived frame) :
    frame.complete = sent.whole arrived := by
  have bounded := stamped.bounded
  have count : frame.packetCount.toNat = sent.packets.length := by
    rw [collects.count, UInt16.toNat_ofNat_of_lt' (by simp only [UInt16.size]; omega)]
  have slots : frame.packets.length = sent.packets.length := by
    rw [collects.packets, SentFrame.slots, List.length_map]
  have positive : frame.packetCount ≠ 0 := by
    intro zero
    rw [zero] at count
    exact stamped.nonempty (List.length_eq_zero_iff.mp count.symm)
  unfold FrameAssembly.complete
  rw [if_neg (by rw [not_or, not_not, count, slots]; exact ⟨positive, rfl⟩), collects.packets,
    SentFrame.slots, List.all_map, SentFrame.whole]
  apply List.all_congr rfl
  intro packet
  by_cases there : packet ∈ arrived <;> simp [there]

/-- A packet fills its slot. -/
theorem Collects.fillSlot (burst : Burst rtc epoch first frames) {j i : ℕ} {sent : SentFrame}
    {message : Message} {arrived : List Message} {frame : FrameAssembly}
    (found : frames[j]? = some sent) (slot : sent.packets[i]? = some message)
    (fresh : message ∉ arrived) (collects : Collects sent arrived frame) :
    Collects sent (message :: arrived) (Receiver.fillSlot (sent.stamp i) message frame) := by
  have index : (sent.stamp i).packetIndex.toNat = i :=
    UInt16.toNat_ofNat_of_lt' (burst.packet_lt (List.mem_of_getElem? found) slot)
  have empty : ((sent.slots arrived).getD i none).isSome = false := by
    rw [SentFrame.slots, List.getD_eq_getElem?_getD, List.getElem?_map, slot]
    simp [fresh]
  refine ⟨collects.frameId, collects.epoch, collects.keyframe, collects.count, ?_⟩
  simp only [Receiver.fillSlot, index, collects.packets, empty, Bool.false_eq_true, if_false]
  exact slots_set burst found slot

/-- An assembly opened for a frame of which nothing has arrived. -/
theorem collects_openAssembly (stamped : sent.Stamped rtc) {arrived : List Message} {atUs : ℤ}
    {message : Message} {i : ℕ} (untouched : ¬sent.Started arrived) :
    Collects sent arrived (Receiver.openAssembly atUs (sent.stamp i) message {}) := by
  have bounded := stamped.bounded
  have count : (sent.stamp i).packetCount.toNat = sent.packets.length :=
    UInt16.toNat_ofNat_of_lt' (by simp only [UInt16.size]; omega)
  refine ⟨rfl, rfl, rfl, rfl, ?_⟩
  rw [slots_of_not_started untouched]
  simp [Receiver.openAssembly, Receiver.resize, count]

theorem Collects.matches {sent : SentFrame} {arrived : List Message} {frame : FrameAssembly} {i : ℕ}
    (collects : Collects sent arrived frame) : Receiver.Matches (sent.stamp i) frame :=
  ⟨collects.count, collects.epoch, collects.keyframe⟩

/-- Another frame's packet changes nothing. -/
theorem Collects.of_not_mem {sent : SentFrame} {arrived : List Message} {frame : FrameAssembly}
    {message : Message} (other : message ∉ sent.packets) (collects : Collects sent arrived frame) :
    Collects sent (message :: arrived) frame :=
  ⟨collects.frameId, collects.epoch, collects.keyframe, collects.count,
    collects.packets.trans (slots_of_not_mem other).symm⟩

theorem started_cons_iff {sent : SentFrame} {arrived : List Message} {message : Message}
    (other : message ∉ sent.packets) : sent.Started (message :: arrived) ↔ sent.Started arrived := by
  constructor
  · rintro ⟨packet, member, there⟩
    rcases List.mem_cons.mp there with rfl | there
    · exact absurd member other
    · exact ⟨packet, member, there⟩
  · rintro ⟨packet, member, there⟩
    exact ⟨packet, member, List.mem_cons_of_mem _ there⟩

/-! ## The buffer -/

/-- The buffer holds exactly the frames from an index on of which a packet has arrived, as they have
arrived, and none from before a time. -/
structure Buffers (first : UInt32) (frames : List SentFrame) (released : ℕ) (arrived : List Message)
    (startUs : ℤ) (buffer : FrameMap) : Prop where
  entries : ∀ (id : UInt32) (frame : FrameAssembly), buffer[id]? = some frame →
    ∃ (j : ℕ) (sent : SentFrame), frames[j]? = some sent ∧ released ≤ j ∧
      id = first + UInt32.ofNat j ∧ sent.Started arrived ∧ Collects sent arrived frame ∧
      startUs ≤ frame.firstSeenUs
  started : ∀ (j : ℕ) (sent : SentFrame), frames[j]? = some sent → released ≤ j →
    sent.Started arrived → ∃ frame, buffer[first + UInt32.ofNat j]? = some frame

variable {released : ℕ} {arrived : List Message} {startUs : ℤ} {buffer : FrameMap}

namespace Buffers

theorem size_le (buffers : Buffers first frames released arrived startUs buffer) :
    buffer.size ≤ frames.length := by
  have bound := OrderedMap.size_le_of_keys
    ((List.range frames.length).map fun j => first + UInt32.ofNat j) fun id frame found => by
      obtain ⟨j, sent, there, _, rfl, _⟩ := buffers.entries id frame found
      exact List.mem_map.mpr
        ⟨j, List.mem_range.mpr (List.getElem?_eq_some_iff.mp there).1, rfl⟩
  rwa [List.length_map, List.length_range] at bound

/-- The entry of a frame of the burst. -/
theorem entry (burst : Burst rtc epoch first frames)
    (buffers : Buffers first frames released arrived startUs buffer) {j : ℕ} {sent : SentFrame}
    {frame : FrameAssembly} (found : frames[j]? = some sent)
    (there : buffer[first + UInt32.ofNat j]? = some frame) :
    released ≤ j ∧ sent.Started arrived ∧ Collects sent arrived frame ∧ startUs ≤ frame.firstSeenUs := by
  obtain ⟨j', sent', found', kept, same, started, collects, seen⟩ := buffers.entries _ frame there
  have bound := burst.index_lt found
  have bound' := burst.index_lt found'
  obtain rfl := eq_of_offset (by omega) (by omega) same
  obtain rfl := Option.some.inj (found.symm.trans found')
  exact ⟨kept, started, collects, seen⟩

theorem empty (first : UInt32) (frames : List SentFrame) (released : ℕ) (startUs : ℤ) :
    Buffers first frames released [] startUs ∅ := by
  constructor
  · intro id frame found
    simp at found
  · rintro j sent _ _ ⟨packet, _, there⟩
    contradiction

/-- The buffer with a packet put into its frame. -/
theorem insert (burst : Burst rtc epoch first frames)
    (buffers : Buffers first frames released arrived startUs buffer) {j i : ℕ} {sent : SentFrame}
    {message : Message} {frame : FrameAssembly} (found : frames[j]? = some sent)
    (slot : sent.packets[i]? = some message) (fresh : message ∉ arrived) (kept : released ≤ j)
    (collects : Collects sent arrived frame) (seen : startUs ≤ frame.firstSeenUs) :
    Buffers first frames released (message :: arrived) startUs
      (buffer.insert (first + UInt32.ofNat j) (Receiver.fillSlot (sent.stamp i) message frame)) := by
  have bound := burst.index_lt found
  have own : sent.Started (message :: arrived) :=
    ⟨message, List.mem_of_getElem? slot, List.mem_cons_self ..⟩
  have foreign : ∀ (j' : ℕ) (sent' : SentFrame), frames[j']? = some sent' → j ≠ j' →
      message ∉ sent'.packets := by
    intro j' sent' found' different member
    obtain ⟨i', slot'⟩ := List.mem_iff_getElem?.mp member
    exact different (burst.place_unique found slot found' slot').1
  constructor
  · intro id frame' there
    by_cases here : first + UInt32.ofNat j = id
    · subst here
      rw [Std.ExtTreeMap.getElem?_insert_self] at there
      obtain rfl := Option.some.inj there
      exact ⟨j, sent, found, kept, rfl, own, collects.fillSlot burst found slot fresh, seen⟩
    · rw [OrderedMap.get_insert_of_ne here] at there
      obtain ⟨j', sent', found', kept', rfl, started, collects', seen'⟩ :=
        buffers.entries id frame' there
      have other := foreign j' sent' found' fun same => here (by rw [same])
      exact ⟨j', sent', found', kept', rfl, (started_cons_iff other).mpr started,
        collects'.of_not_mem other, seen'⟩
  · intro j' sent' found' kept' started
    by_cases here : j = j'
    · subst here
      exact ⟨_, Std.ExtTreeMap.getElem?_insert_self⟩
    · have bound' := burst.index_lt found'
      have apart : first + UInt32.ofNat j ≠ first + UInt32.ofNat j' := fun same =>
        here (eq_of_offset (by omega) (by omega) same)
      rw [OrderedMap.get_insert_of_ne apart]
      exact buffers.started j' sent' found' kept'
        ((started_cons_iff (foreign j' sent' found' here)).mp started)

/-- Handing on the first frame of the buffer. -/
theorem erase (burst : Burst rtc epoch first frames)
    (buffers : Buffers first frames released arrived startUs buffer) (inside : released < 2 ^ 32) :
    Buffers first frames (released + 1) arrived startUs
      (buffer.erase (first + UInt32.ofNat released)) := by
  constructor
  · intro id frame there
    obtain ⟨before, other⟩ := OrderedMap.get_of_get_erase there
    obtain ⟨j, sent, found, kept, rfl, rest⟩ := buffers.entries id frame before
    have different : j ≠ released := fun same => other (by rw [same])
    exact ⟨j, sent, found, by omega, rfl, rest⟩
  · intro j sent found kept started
    have bound := burst.index_lt found
    have apart : first + UInt32.ofNat released ≠ first + UInt32.ofNat j := fun same => by
      have equal := eq_of_offset inside (by omega) same
      omega
    rw [OrderedMap.get_erase_of_ne apart]
    exact buffers.started j sent found (by omega) started

/-- A poll changes nothing that matters here. -/
theorem polled {r s : Receiver} (buffers : Buffers first frames released arrived startUs r.frames)
    (polled : Receiver.Polled r s) : Buffers first frames released arrived startUs s.frames := by
  constructor
  · intro id frame there
    obtain ⟨before, nackUs, present, rfl⟩ := polled.get there
    obtain ⟨j, sent, found, kept, same, started, collects, seen⟩ := buffers.entries id before present
    exact ⟨j, sent, found, kept, same, started,
      ⟨collects.frameId, collects.epoch, collects.keyframe, collects.count, collects.packets⟩, seen⟩
  · intro j sent found kept started
    obtain ⟨frame, there⟩ := buffers.started j sent found kept started
    obtain ⟨after, nackUs, present, _⟩ := polled.symm.get there
    exact ⟨after, present⟩

end Buffers

/-! ## Storing a packet of a burst -/

variable {r : Receiver}

/-- No placeholder is needed below a packet when every frame from the cursor up to its own has
started, or when its id has wrapped and the cursor has not. -/
theorem withPlaceholders_burst (burst : Burst rtc epoch first frames)
    (buffers : Buffers first frames released arrived startUs r.frames)
    (cursor : r.nextOutputFrameId = some (first + UInt32.ofNat released)) {atUs : ℤ} {j i : ℕ}
    {sent : SentFrame} (found : frames[j]? = some sent) (kept : released ≤ j)
    (order : first + UInt32.ofNat released < first + UInt32.ofNat j →
      ∀ (k : ℕ) (earlier : SentFrame), frames[k]? = some earlier → k < j → earlier.Started arrived) :
    r.withPlaceholders atUs (sent.stamp i) = r := by
  apply Receiver.withPlaceholders_of_present cursor
  intro id lower upper
  change id < sent.frameId at upper
  rw [burst.ids j sent found] at upper
  have bound := burst.index_lt found
  obtain ⟨k, released_le, below, rfl⟩ := exists_offset kept (by omega) lower upper
  have inside : k < frames.length := Nat.lt_trans below (List.getElem?_eq_some_iff.mp found).1
  have earlier := List.getElem?_eq_getElem inside
  exact buffers.started k _ earlier released_le
    (order (UInt32.lt_of_le_of_lt lower upper) k _ earlier below)

/-- The assembly a packet of the burst goes into. -/
private theorem collects_assemblyFor (burst : Burst rtc epoch first frames) (positive : 0 < startUs)
    (buffers : Buffers first frames released arrived startUs r.frames) {atUs : ℤ} {j i : ℕ}
    {sent : SentFrame} (message : Message) (found : frames[j]? = some sent) (kept : released ≤ j)
    (inTime : startUs ≤ atUs) :
    Collects sent arrived (r.assemblyFor atUs (sent.stamp i) message) ∧
      startUs ≤ (r.assemblyFor atUs (sent.stamp i) message).firstSeenUs := by
  have key : (sent.stamp i).frameId = first + UInt32.ofNat j := burst.ids j sent found
  cases there : r.frames[first + UInt32.ofNat j]? with
  | none =>
    rw [Receiver.assemblyFor_of_none (by rw [key, there])]
    refine ⟨collects_openAssembly (burst.stamped sent (List.mem_of_getElem? found)) fun started => ?_,
      inTime⟩
    obtain ⟨frame, present⟩ := buffers.started j sent found kept started
    rw [there] at present
    contradiction
  | some frame =>
    obtain ⟨_, _, collects, seen⟩ := buffers.entry burst found there
    rw [Receiver.assemblyFor_of_get (by rw [key, there]) (by omega)]
    exact ⟨collects, seen⟩

/-- Storing a packet of the burst puts it into its frame and changes nothing else. -/
theorem storePacket_burst (burst : Burst rtc epoch first frames) (positive : 0 < startUs)
    (buffers : Buffers first frames released arrived startUs r.frames) {atUs : ℤ} {j i : ℕ}
    {sent : SentFrame} {message : Message} (found : frames[j]? = some sent)
    (slot : sent.packets[i]? = some message) (fresh : message ∉ arrived) (kept : released ≤ j)
    (inTime : startUs ≤ atUs) :
    ∃ buffer, r.storePacket atUs (sent.stamp i) message = { r with frames := buffer } ∧
      Buffers first frames released (message :: arrived) startUs buffer := by
  obtain ⟨collects, seen⟩ :=
    collects_assemblyFor (i := i) burst positive buffers message found kept inTime
  have grown := buffers.insert burst found slot fresh kept collects seen
  rw [← burst.ids j sent found] at grown
  obtain ⟨stored, stored_eq, step⟩ := Receiver.storePacket_of_matches collects.matches
  refine ⟨_, ?_, grown⟩
  rw [step, stored_eq]
  apply Receiver.evict_of_fits
  exact Nat.le_trans grown.size_le (Nat.le_of_lt burst.few)

end WeakNetVideo
