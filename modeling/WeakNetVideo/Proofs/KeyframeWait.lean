import WeakNetVideo.Proofs.BurstProgress

/-! # Waiting for a keyframe

A receiver without synchronization collects a burst that starts with a keyframe. As long as the
keyframe is not whole a drain keeps the incomplete frames and drops the whole ones; the drain that
finds the keyframe whole hands it on and keeps the frames above it. From there on the receiver tracks
the rest of the burst.
-/

namespace WeakNetVideo

/-- Before every packet, all frames before its own have started. -/
def FirstsInOrder (frames : List SentFrame) (messages : List Message) : Prop :=
  ∀ before message after, messages = before ++ message :: after →
    ∀ (j k : ℕ) (sent earlier : SentFrame), frames[j]? = some sent → message ∈ sent.packets →
      frames[k]? = some earlier → k < j → earlier.Started before

/-- The receiver has no synchronization and collects the burst from its first frame on. -/
structure Waits (epoch : UInt16) (first : UInt32) (frames : List SentFrame) (startUs : ℤ)
    (arrived : List Message) (r : Receiver) : Prop where
  lost : r.stats.synchronized = false
  unset : arrived = [] → r.nextOutputFrameId = none ∧ r.frames = ∅
  set : arrived ≠ [] → r.receiverEpoch = some epoch ∧ r.nextOutputFrameId = some first
  buffers : Buffers first frames 0 arrived startUs r.frames

/-- A drain that comes before the keyframe is handed on drops nothing of the burst: while the keyframe is
not whole no delta frame is, and when it is whole every frame that has started has a larger id. -/
def DropsNothing (keyframe : SentFrame) (deltas : List SentFrame) (_ : List (List SentFrame))
    (progress : Progress) (event : ReceiverEvent) : Prop :=
  ∀ atUs, event = .drain atUs → progress.released = 0 →
    if keyframe.whole progress.arrived then
      ∀ delta ∈ deltas, delta.Started progress.arrived → keyframe.frameId < delta.frameId
    else ∀ delta ∈ deltas, delta.whole progress.arrived = false

variable {rtc : Rtc} {epoch : UInt16} {first : UInt32} {keyframe : SentFrame}
  {deltas frames : List SentFrame} {startUs atUs : ℤ} {arrived : List Message} {r : Receiver}
  {progress : Progress} {message : Message} {event : ReceiverEvent} {events : List ReceiverEvent}

theorem leading_cons_eq_zero_iff (deltas : List SentFrame) :
    leading (keyframe :: deltas) arrived = 0 ↔ keyframe.whole arrived = false := by
  simp only [leading]
  split_ifs with whole
  · simp [whole]
  · simp [whole]

theorem started_reverse {sent : SentFrame} :
    sent.Started arrived.reverse ↔ sent.Started arrived := by
  simp only [SentFrame.Started, List.mem_reverse]

/-- The order of the first packets, seen from behind an event. -/
theorem firstsInOrder_tail (frames : List SentFrame)
    (inOrder : FirstsInOrder frames (progress.arrived.reverse ++ processed (event :: events))) :
    FirstsInOrder frames ((progress.step frames event).1.arrived.reverse ++ processed events) := by
  cases event with
  | packet atUs message =>
    change FirstsInOrder frames ((message :: progress.arrived).reverse ++ processed events)
    rw [List.reverse_cons, List.append_assoc]
    exact inOrder
  | drain atUs => exact inOrder
  | poll atUs => exact inOrder
  | bindSend => exact inOrder
  | recordPliSent => exact inOrder
  | invalidateSync => exact inOrder

/-- Where the first packets are in order, nothing overtakes. -/
theorem everywhere_inOrder (frames : List SentFrame) (first : UInt32) (progress : Progress)
    (inOrder : FirstsInOrder frames (progress.arrived.reverse ++ processed events))
    (past : List (List SentFrame)) :
    (burstMachine frames).Everywhere (InOrder first frames) past progress events := by
  induction events generalizing progress past with
  | nil => trivial
  | cons event events ih =>
    constructor
    · rintro atUs message rfl ⟨j, sent, found, member, _, k, earlier, there, below, untouched⟩
      exact untouched (started_reverse.mp
        (inOrder _ message (processed events) rfl j k sent earlier found member there below))
    · exact ih _ (firstsInOrder_tail frames inOrder) _

/-! ## Packets -/

/-- Whatever the epoch was, the first packet sets it and the cursor, and finds an empty buffer. -/
private theorem adoptEpoch_first (metadata : FrameMetadata) (lost : r.stats.synchronized = false)
    (unset : r.nextOutputFrameId = none) (empty : r.frames = ∅) :
    (r.adoptEpoch metadata).stats.synchronized = false ∧
      (r.adoptEpoch metadata).receiverEpoch = some metadata.epoch ∧
      (r.adoptEpoch metadata).nextOutputFrameId = some metadata.frameId ∧
      (r.adoptEpoch metadata).frames = ∅ := by
  rcases r.adoptEpoch_cases metadata with ⟨same, stays⟩ | clears
  · rw [stays, unset]
    exact ⟨lost, same, rfl, empty⟩
  · rw [clears]
    exact ⟨rfl, rfl, rfl, rfl⟩

/-- A packet whose earlier frames have all started is collected. -/
theorem waits_packet (burst : Burst rtc epoch first frames) (positive : 0 < startUs)
    (waits : Waits epoch first frames startUs arrived r) {j i : ℕ} {sent : SentFrame}
    (found : frames[j]? = some sent) (slot : sent.packets[i]? = some message)
    (fresh : message ∉ arrived) (inTime : startUs ≤ atUs)
    (started : ∀ (k : ℕ) (earlier : SentFrame), frames[k]? = some earlier → k < j →
      earlier.Started arrived) :
    Waits epoch first frames startUs (message :: arrived) (r.processReceiverPacket rtc atUs message) := by
  have member := List.mem_of_getElem? found
  have ready : (r.adoptEpoch (sent.stamp i)).stats.synchronized = false ∧
      (r.adoptEpoch (sent.stamp i)).receiverEpoch = some epoch ∧
      (r.adoptEpoch (sent.stamp i)).nextOutputFrameId = some (first + UInt32.ofNat 0) ∧
      (r.adoptEpoch (sent.stamp i)).frames = r.frames := by
    have zero : first + UInt32.ofNat 0 = first := UInt32.add_zero first
    cases order : arrived with
    | nil =>
      have own : j = 0 := by
        by_contra later
        have inside := (List.getElem?_eq_some_iff.mp found).1
        obtain ⟨packet, _, there⟩ := started 0 _ (List.getElem?_eq_getElem (by omega)) (by omega)
        rw [order] at there
        contradiction
      obtain ⟨cursor, empty⟩ := waits.unset order
      obtain ⟨lost, current, next, clear⟩ := adoptEpoch_first (sent.stamp i) waits.lost cursor
        empty
      refine ⟨lost, ?_, ?_, clear.trans empty.symm⟩
      · rw [current, ← burst.epoch sent member]
        rfl
      · rw [next, ← own, ← burst.ids j sent found]
        rfl
    | cons head rest =>
      obtain ⟨current, cursor⟩ := waits.set (order ▸ List.cons_ne_nil head rest)
      rw [Receiver.adoptEpoch_of_same (by rw [current, ← burst.epoch sent member]; rfl)
        (by rw [cursor]; rfl), zero]
      exact ⟨waits.lost, current, cursor, rfl⟩
  obtain ⟨lost, current, cursor, same⟩ := ready
  have buffers := waits.buffers
  rw [← same] at buffers
  rw [Receiver.processReceiverPacket_of_valid (burst.validMetadata member slot),
    withPlaceholders_burst burst buffers cursor found (Nat.zero_le j) fun _ => started]
  obtain ⟨buffer, step, grown⟩ :=
    storePacket_burst burst positive buffers found slot fresh (Nat.zero_le j) inTime
  rw [step]
  refine ⟨lost, fun empty => absurd empty (List.cons_ne_nil _ _), fun _ => ⟨current, ?_⟩, grown⟩
  rw [cursor]
  exact congrArg some (UInt32.add_zero first)

/-! ## Drains -/

/-- The entry of a complete keyframe is the keyframe of the burst, whole. -/
private theorem entry_of_syncPoint (burst : Burst rtc epoch first (keyframe :: deltas))
    (plain : ∀ delta ∈ deltas, delta.keyframe = false)
    (waits : Waits epoch first (keyframe :: deltas) startUs arrived r) {id : UInt32}
    {frame : FrameAssembly} (there : r.frames[id]? = some frame)
    (point : Receiver.IsSyncPoint (id, frame) = true) :
    id = first ∧ keyframe.whole arrived = true ∧ frame.content = keyframe.content := by
  simp only [Receiver.IsSyncPoint, Bool.and_eq_true] at point
  obtain ⟨j, sent, found, _, same, _, collects, _⟩ := waits.buffers.entries id frame there
  have stamped := burst.stamped sent (List.mem_of_getElem? found)
  have whole : sent.whole arrived = true := by
    rw [← collects.complete_iff stamped]
    exact point.1
  cases j with
  | zero =>
    obtain rfl : keyframe = sent := Option.some.inj found
    refine ⟨same.trans (UInt32.add_zero first), whole, ?_⟩
    rw [FrameAssembly.content, SentFrame.content, collects.frameId, collects.packets,
      slots_of_whole whole]
  | succ j =>
    have delta := plain sent (List.mem_of_getElem? found)
    rw [← collects.keyframe, point.2] at delta
    contradiction

/-- The entry of the whole keyframe is a complete keyframe. -/
private theorem syncPoint_of_whole (burst : Burst rtc epoch first (keyframe :: deltas))
    (key : keyframe.keyframe = true)
    (waits : Waits epoch first (keyframe :: deltas) startUs arrived r)
    (whole : keyframe.whole arrived = true) :
    ∃ frame, r.frames[first]? = some frame ∧ Receiver.IsSyncPoint (first, frame) = true := by
  have stamped := burst.stamped keyframe (List.mem_cons_self ..)
  obtain ⟨frame, there⟩ := waits.buffers.started 0 keyframe rfl (Nat.le_refl 0)
    (started_of_whole stamped whole)
  have collects := (waits.buffers.entry burst (j := 0) rfl there).2.2.1
  rw [show first + UInt32.ofNat 0 = first from UInt32.add_zero first] at there
  refine ⟨frame, there, ?_⟩
  rw [Receiver.IsSyncPoint, collects.complete_iff stamped, whole, collects.keyframe, key]
  rfl

/-- Before the keyframe is whole a drain hands nothing on and keeps the incomplete frames. -/
theorem drain_waiting (burst : Burst rtc epoch first (keyframe :: deltas))
    (plain : ∀ delta ∈ deltas, delta.keyframe = false)
    (waits : Waits epoch first (keyframe :: deltas) startUs arrived r)
    (open_ : keyframe.whole arrived = false) (inTime : atUs < startUs + r.recoveryTimeoutUs) :
    ∃ dropped, r.drainCompleteFrames atUs = ({ r with
        frames := Receiver.dropEntries r.recoveryTimeoutUs atUs r.frames.toList r.frames
        stats := { r.stats with droppedFrames := dropped } }, {}) ∧
      ∀ (id : UInt32) (frame : FrameAssembly),
        (Receiver.dropEntries r.recoveryTimeoutUs atUs r.frames.toList r.frames)[id]? = some frame ↔
          r.frames[id]? = some frame ∧ frame.complete = false := by
  rcases Receiver.drain_unsynchronized atUs waits.lost with
    ⟨dropped, _, step⟩ | ⟨id, frame, _, there, point, _, _⟩
  · refine ⟨dropped, step, fun id frame => ?_⟩
    rw [Receiver.get_dropEntries]
    apply and_congr_right
    intro there
    obtain ⟨_, _, _, _, _, _, _, seen⟩ := waits.buffers.entries id frame there
    have only : ∀ other, (id, other) ∈ r.frames.toList ↔ other = frame := fun other => by
      rw [Std.ExtTreeMap.mem_toList_iff_getElem?_eq_some, there, Option.some.injEq, eq_comm]
    simp only [only, forall_eq, Receiver.Droppable, Bool.or_eq_false_iff, decide_eq_false_iff_not,
      and_iff_left_iff_imp]
    intro _
    omega
  · obtain ⟨_, whole, _⟩ := entry_of_syncPoint burst plain waits there point
    rw [open_] at whole
    contradiction

/-- When no delta frame is whole either, the receiver goes on waiting. -/
theorem waits_drain (burst : Burst rtc epoch first (keyframe :: deltas))
    (plain : ∀ delta ∈ deltas, delta.keyframe = false)
    (waits : Waits epoch first (keyframe :: deltas) startUs arrived r)
    (open_ : keyframe.whole arrived = false) (incomplete : ∀ delta ∈ deltas, delta.whole arrived = false)
    (inTime : atUs < startUs + r.recoveryTimeoutUs) :
    Waits epoch first (keyframe :: deltas) startUs arrived (r.drainCompleteFrames atUs).1 ∧
      (r.drainCompleteFrames atUs).2.frames = [] := by
  obtain ⟨dropped, step, entries⟩ := drain_waiting burst plain waits open_ inTime
  have same : Receiver.dropEntries r.recoveryTimeoutUs atUs r.frames.toList r.frames = r.frames := by
    apply Std.ExtTreeMap.ext_getElem?
    intro id
    cases there : r.frames[id]? with
    | none =>
      cases after : (Receiver.dropEntries r.recoveryTimeoutUs atUs r.frames.toList r.frames)[id]? with
      | none => rfl
      | some frame =>
        rw [((entries id frame).mp after).1] at there
        contradiction
    | some frame =>
      obtain ⟨j, sent, found, _, _, _, collects, _⟩ := waits.buffers.entries id frame there
      have member := List.mem_of_getElem? found
      refine (entries id frame).mpr ⟨there, ?_⟩
      rw [collects.complete_iff (burst.stamped sent member)]
      rcases List.mem_cons.mp member with rfl | delta
      · exact open_
      · exact incomplete sent delta
  rw [step, same]
  exact ⟨⟨waits.lost, waits.unset, waits.set, waits.buffers⟩, rfl⟩

/-- The drain that finds the keyframe whole hands it on and keeps what has a larger id. -/
theorem drain_keyframe (burst : Burst rtc epoch first (keyframe :: deltas))
    (key : keyframe.keyframe = true) (plain : ∀ delta ∈ deltas, delta.keyframe = false)
    (waits : Waits epoch first (keyframe :: deltas) startUs arrived r)
    (whole : keyframe.whole arrived = true) (atUs : ℤ) :
    ∃ frame dropped, frame.content = keyframe.content ∧
      r.drainCompleteFrames atUs = ({ r with
        frames := OrderedMap.eraseThrough r.frames first
        nextOutputFrameId := some (first + 1)
        stats := { r.stats with
          completeFrames := r.stats.completeFrames + 1
          droppedFrames := dropped
          synchronized := true } },
        { frames := [frame], sent := [keyframeAck frame.epoch frame.frameId], syncRestored := 1 }) := by
  rcases Receiver.drain_unsynchronized atUs waits.lost with
    ⟨_, none, _⟩ | ⟨id, frame, dropped, there, point, _, step⟩
  · obtain ⟨frame, there, point⟩ := syncPoint_of_whole burst key waits whole
    rw [none first frame there] at point
    contradiction
  · obtain ⟨rfl, _, content⟩ := entry_of_syncPoint burst plain waits there point
    refine ⟨frame, dropped, content, ?_⟩
    have same : frame.frameId = keyframe.frameId := congrArg Prod.fst content
    rw [step, same, burst.ids 0 keyframe rfl, show id + UInt32.ofNat 0 = id from UInt32.add_zero id]

/-- When every frame that has started has a larger id, the receiver tracks the rest of the burst. -/
theorem tracks_drain_keyframe (burst : Burst rtc epoch first (keyframe :: deltas))
    (key : keyframe.keyframe = true) (plain : ∀ delta ∈ deltas, delta.keyframe = false)
    (waits : Waits epoch first (keyframe :: deltas) startUs arrived r)
    (whole : keyframe.whole arrived = true)
    (above : ∀ delta ∈ deltas, delta.Started arrived → keyframe.frameId < delta.frameId) (atUs : ℤ) :
    Tracks epoch first (keyframe :: deltas) startUs ⟨arrived, 1⟩ (r.drainCompleteFrames atUs).1 ∧
      (r.drainCompleteFrames atUs).2.frames.map FrameAssembly.content = [keyframe.content] := by
  obtain ⟨frame, dropped, content, step⟩ := drain_keyframe burst key plain waits whole atUs
  have start : keyframe.frameId = first :=
    (burst.ids 0 keyframe rfl).trans (UInt32.add_zero first)
  have begun : arrived ≠ [] := by
    rintro rfl
    obtain ⟨_, _, there⟩ := started_of_whole (burst.stamped keyframe (List.mem_cons_self ..)) whole
    contradiction
  rw [step]
  refine ⟨⟨rfl, (waits.set begun).1, rfl, ⟨fun id frame' there => ?_, fun j sent found kept started => ?_⟩,
    ?_⟩, by rw [List.map_singleton, content]⟩
  · obtain ⟨before, order⟩ := OrderedMap.get_of_get_eraseThrough there
    obtain ⟨j, sent, found, _, same, rest⟩ := waits.buffers.entries id frame' before
    refine ⟨j, sent, found, ?_, same, rest⟩
    change 1 ≤ j
    by_contra zero
    obtain rfl : j = 0 := by omega
    rw [same, show first + UInt32.ofNat 0 = first from UInt32.add_zero first] at order
    simp at order
  · obtain ⟨frame', there⟩ := waits.buffers.started j sent found (Nat.zero_le j) started
    refine ⟨frame', ?_⟩
    cases j with
    | zero => contradiction
    | succ j =>
      have larger := above sent (List.mem_of_getElem? found) started
      rw [start, burst.ids _ sent found] at larger
      rw [OrderedMap.get_eraseThrough_of_lt (Std.compare_eq_lt.mpr larger)]
      exact there
  · change 1 ≤ leading (keyframe :: deltas) arrived
    rw [leading, if_pos whole]
    omega

/-! ## Whole runs -/

/-- What a run from the wait on has led to: the receiver still waits and has handed nothing on, or it
tracks the rest of the burst and has handed on all frames up to there. -/
def Recovers (epoch : UInt16) (first : UInt32) (keyframe : SentFrame) (deltas : List SentFrame)
    (startUs : ℤ) (progress : Progress) (r : Receiver) (emitted : List FrameAssembly) : Prop :=
  (progress.released = 0 ∧ Waits epoch first (keyframe :: deltas) startUs progress.arrived r ∧
      emitted = []) ∨
    0 < progress.released ∧ ∃ released, 1 ≤ released ∧
      Tracks epoch first (keyframe :: deltas) startUs ⟨progress.arrived, released⟩ r ∧
      emitted.map FrameAssembly.content =
        ((keyframe :: deltas).take released).map SentFrame.content

/-- One event of the wait. -/
theorem waits_step (burst : Burst rtc epoch first (keyframe :: deltas)) (positive : 0 < startUs)
    (key : keyframe.keyframe = true) (plain : ∀ delta ∈ deltas, delta.keyframe = false)
    (fresh : progress.released = 0)
    (waits : Waits epoch first (keyframe :: deltas) startUs progress.arrived r)
    (scheduled : Scheduled (keyframe :: deltas) startUs r.recoveryTimeoutUs progress.arrived
      (event :: events))
    (inOrder : FirstsInOrder (keyframe :: deltas)
      (progress.arrived.reverse ++ processed (event :: events)))
    {past : List (List SentFrame)} (dropsNothing : DropsNothing keyframe deltas past progress event) :
    Recovers epoch first keyframe deltas startUs (progress.step (keyframe :: deltas) event).1
      (r.step rtc event).1 (r.step rtc event).2.frames := by
  cases event with
  | packet atUs message =>
    obtain ⟨j, i, sent, found, slot, new⟩ := scheduled.place burst
    have inTime := (scheduled.inTime _ (List.mem_cons_self ..)).1
    refine .inl ⟨fresh, ?_, rfl⟩
    apply waits_packet burst positive waits found slot new inTime
    intro k earlier there below
    exact started_reverse.mp
      (inOrder _ message (processed events) rfl j k sent earlier found (List.mem_of_getElem? slot) there below)
  | drain atUs =>
    have condition := dropsNothing atUs rfl fresh
    cases whole : keyframe.whole progress.arrived with
    | true =>
      rw [if_pos whole] at condition
      obtain ⟨tracks, content⟩ := tracks_drain_keyframe burst key plain waits whole condition atUs
      refine .inr ⟨?_, 1, Nat.le_refl 1, tracks, content⟩
      rw [Nat.pos_iff_ne_zero]
      intro zero
      rw [(leading_cons_eq_zero_iff deltas).mp zero] at whole
      contradiction
    | false =>
      rw [whole, if_neg Bool.false_ne_true] at condition
      have zero := (leading_cons_eq_zero_iff deltas).mpr whole
      have inTime := scheduled.drain_inTime (by rw [zero]; exact Nat.succ_pos _)
      obtain ⟨still, silent⟩ := waits_drain burst plain waits whole condition inTime
      exact .inl ⟨zero, still, silent⟩
  | poll atUs =>
    have polled := Receiver.poll_polled r atUs
    refine .inl ⟨fresh, ⟨polled.synchronized.trans waits.lost, fun empty => ?_, fun begun => ?_,
      waits.buffers.polled polled⟩, Receiver.poll_frames r atUs⟩
    · obtain ⟨cursor, clear⟩ := waits.unset empty
      exact ⟨polled.cursor.trans cursor, polled.empty clear⟩
    · obtain ⟨current, cursor⟩ := waits.set begun
      exact ⟨polled.epoch.trans current, polled.cursor.trans cursor⟩
  | bindSend => exact .inl ⟨fresh, ⟨waits.lost, waits.unset, waits.set, waits.buffers⟩, rfl⟩
  | recordPliSent => exact .inl ⟨fresh, ⟨waits.lost, waits.unset, waits.set, waits.buffers⟩, rfl⟩
  | invalidateSync => exact absurd (List.mem_cons_self ..) scheduled.quiet

/-- Once frames have been handed on, this stays so. -/
theorem released_final {progress : Progress} (bounded : progress.released ≤ leading frames progress.arrived)
    (event : ReceiverEvent) (events : List ReceiverEvent)
    (begun : 0 < (progress.step frames event).1.released) :
    0 < ((burstMachine frames).final progress (event :: events)).released := by
  have once := (handedOn_run bounded [event]).released
  exact Nat.lt_of_lt_of_le begun (handedOn_run once events).order

/-- A run of the wait in which no drain drops a frame of the burst. -/
theorem waits_run (burst : Burst rtc epoch first (keyframe :: deltas)) (positive : 0 < startUs)
    (key : keyframe.keyframe = true) (plain : ∀ delta ∈ deltas, delta.keyframe = false)
    (fresh : progress.released = 0)
    (waits : Waits epoch first (keyframe :: deltas) startUs progress.arrived r)
    (scheduled : Scheduled (keyframe :: deltas) startUs r.recoveryTimeoutUs progress.arrived events)
    (inOrder : FirstsInOrder (keyframe :: deltas) (progress.arrived.reverse ++ processed events))
    {past : List (List SentFrame)} (dropsNothing : (burstMachine (keyframe :: deltas)).Everywhere
      (DropsNothing keyframe deltas) past progress events) :
    Recovers epoch first keyframe deltas startUs
      ((burstMachine (keyframe :: deltas)).final progress events) ((receiverMachine rtc).final r events)
      (((receiverMachine rtc).outputs r events).flatMap Output.frames) := by
  induction events generalizing progress r past with
  | nil => exact .inl ⟨fresh, waits, rfl⟩
  | cons event events ih =>
    have later := scheduled.tail
    rw [← Receiver.step_recoveryTimeoutUs rtc r event] at later
    have order := firstsInOrder_tail _ inOrder
    rw [Transducer.outputs_cons, List.flatMap_cons, receiverMachine_step]
    rcases waits_step burst positive key plain fresh waits scheduled inOrder dropsNothing.1 with
      ⟨still, next, silent⟩ | ⟨begun, released, above, tracks, content⟩
    · rw [silent, List.nil_append]
      exact ih still next later order dropsNothing.2
    · obtain ⟨last, contents, _⟩ := tracks_run burst positive tracks later
        (everywhere_inOrder _ first ⟨_, released⟩ order [])
      have handed := handedOn_run tracks.released events
      have same : ((burstMachine (keyframe :: deltas)).final progress (event :: events)).arrived =
          ((burstMachine (keyframe :: deltas)).final
            ⟨(progress.step (keyframe :: deltas) event).1.arrived, released⟩ events).arrived := by
        rw [Transducer.final_cons, arrived_final, arrived_final]
        rfl
      refine .inr ⟨released_final (Nat.le_of_eq fresh |>.trans (Nat.zero_le _)) event events begun,
        _, Nat.le_trans above handed.order, ?_, ?_⟩
      · rw [same]
        exact last
      · rw [List.map_append, content, contents, handed.content, ← List.map_append]
        exact congrArg _ (drop_take_append _ (Nat.zero_le _) handed.order)

end WeakNetVideo
