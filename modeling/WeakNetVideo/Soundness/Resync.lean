import WeakNetVideo.Soundness.Reordering
import WeakNetVideo.Proofs.KeyframeWait

/-! # Resynchronization

A burst behind a lost synchronization comes out whole exactly when no drain drops a frame of it: a
delta frame that is whole before the keyframe is dropped at once, and its packets never come again.
-/

namespace WeakNetVideo

variable {rtc : Rtc} {epoch : UInt16} {first : UInt32} {keyframe : SentFrame}
  {deltas frames : List SentFrame} {startUs atUs : ℤ} {progress : Progress} {r s : Receiver}
  {packet message : Message} {event : ReceiverEvent} {events : List ReceiverEvent}

/-! ## A packet that is gone -/

namespace Receiver

/-- No slot of the buffer has the packet. -/
def Lacks (r : Receiver) (packet : Message) : Prop :=
  ∀ (id : UInt32) (frame : FrameAssembly), r.frames[id]? = some frame → some packet ∉ frame.packets

/-- Opening an assembly fills no slot. -/
private theorem mem_assemblyFor (atUs : ℤ) (metadata : FrameMetadata) (message : Message)
    (lacks : r.Lacks packet) :
    some packet ∉ (r.assemblyFor atUs metadata message).packets := by
  have before : some packet ∉ (r.frames[metadata.frameId]?.getD {}).packets := by
    cases found : r.frames[metadata.frameId]? with
    | none => exact List.not_mem_nil
    | some frame => exact lacks _ frame found
  simp only [assemblyFor, openAssembly]
  split_ifs
  · simp only [resize, List.mem_append, List.mem_replicate, reduceCtorEq, and_false, or_false]
    exact fun inside => before (List.mem_of_mem_take inside)
  · exact before

private theorem lacks_packet (lacks : r.Lacks packet) (other : message ≠ packet) :
    (r.processReceiverPacket rtc atUs message).Lacks packet := by
  cases valid : validMetadata rtc message with
  | none => rwa [processReceiverPacket_of_invalid valid]
  | some metadata =>
    intro id frame found
    have adopted : (r.adoptEpoch metadata).Lacks packet := fun id frame there =>
      lacks id frame (get_adoptEpoch there).1
    rcases get_processReceiverPacket valid found with ⟨before, _⟩ | ⟨rfl, _⟩ | ⟨rfl, _, rfl⟩
    · exact adopted id frame before
    · exact List.not_mem_nil
    · have unfilled := mem_assemblyFor atUs metadata message adopted
      simp only [fillSlot]
      split_ifs
      · exact unfilled
      · intro inside
        rcases List.mem_or_eq_of_mem_set inside with before | here
        · exact unfilled before
        · exact other (Option.some.inj here).symm

/-- A packet that no slot has and that does not come again is not handed on. -/
private theorem lacks_step (rtc : Rtc) (lacks : r.Lacks packet)
    (other : ∀ atUs, event ≠ .packet atUs packet) :
    (r.step rtc event).1.Lacks packet ∧ ∀ frame ∈ (r.step rtc event).2.frames, some packet ∉ frame.packets := by
  cases event with
  | packet atUs message =>
    refine ⟨lacks_packet lacks fun same => other atUs (same ▸ rfl), fun frame member => ?_⟩
    contradiction
  | drain atUs =>
    obtain ⟨_, _, entries, out⟩ := drain_spec r atUs
    refine ⟨fun id frame found => lacks id frame (entries id frame found), fun frame member => ?_⟩
    obtain ⟨id, found, _⟩ := out frame member
    exact lacks id frame found
  | poll atUs =>
    refine ⟨fun id frame found => ?_, fun frame member => ?_⟩
    · obtain ⟨before, nackUs, there, rfl⟩ := (poll_polled r atUs).get found
      exact lacks id before there
    · rw [step, poll_frames] at member
      contradiction
  | bindSend => exact ⟨lacks, fun frame member => absurd member List.not_mem_nil⟩
  | recordPliSent => exact ⟨lacks, fun frame member => absurd member List.not_mem_nil⟩
  | invalidateSync =>
    refine ⟨fun id frame found => ?_, fun frame member => absurd member List.not_mem_nil⟩
    simp [step, invalidateSync] at found

theorem lacks_run (lacks : r.Lacks packet) (gone : packet ∉ processed events) :
    ∀ frame ∈ ((receiverMachine rtc).outputs r events).flatMap Output.frames,
      some packet ∉ frame.packets := by
  induction events generalizing r with
  | nil => simp
  | cons event events ih =>
    have other : ∀ atUs, event ≠ .packet atUs packet := by
      rintro atUs rfl
      exact gone (List.mem_cons_self ..)
    have later : packet ∉ processed events := fun inside => gone (mem_processed_cons inside)
    obtain ⟨next, silent⟩ := lacks_step rtc lacks other
    intro frame member
    rw [Transducer.outputs_cons, List.flatMap_cons] at member
    rcases List.mem_append.mp member with here | there
    · exact silent frame here
    · exact ih next later frame there

end Receiver

/-- When every entry with a packet's frame is gone, the packet is. -/
private theorem lacks_of_entries (burst : Burst rtc epoch first frames) {released : ℕ}
    {arrived : List Message} (buffers : Buffers first frames released arrived startUs r.frames) {j : ℕ}
    {sent : SentFrame} (found : frames[j]? = some sent) (member : packet ∈ sent.packets)
    (entries : ∀ (id : UInt32) (frame : FrameAssembly), s.frames[id]? = some frame →
      r.frames[id]? = some frame ∧ (id = first + UInt32.ofNat j → ¬Collects sent arrived frame)) :
    s.Lacks packet := by
  intro id frame there inside
  obtain ⟨before, other⟩ := entries id frame there
  obtain ⟨j', sent', found', _, same, _, collects, _⟩ := buffers.entries id frame before
  rw [collects.packets] at inside
  obtain ⟨packet', member', filled⟩ := List.mem_map.mp inside
  split_ifs at filled
  obtain rfl := Option.some.inj filled
  obtain ⟨i, slot⟩ := List.mem_iff_getElem?.mp member
  obtain ⟨i', slot'⟩ := List.mem_iff_getElem?.mp member'
  obtain ⟨rfl, _⟩ := burst.place_unique found slot found' slot'
  obtain rfl := Option.some.inj (found.symm.trans found')
  exact other same collects

/-- A whole delta frame that a drain finds before the keyframe is whole is lost. -/
private theorem lacks_of_whole_delta (burst : Burst rtc epoch first (keyframe :: deltas))
    (plain : ∀ delta ∈ deltas, delta.keyframe = false) {arrived : List Message}
    (waits : Waits epoch first (keyframe :: deltas) startUs arrived r)
    (open_ : keyframe.whole arrived = false) (inTime : atUs < startUs + r.recoveryTimeoutUs)
    {delta : SentFrame} (inside : delta ∈ deltas) (whole : delta.whole arrived = true)
    (member : packet ∈ delta.packets) :
    (r.drainCompleteFrames atUs).1.Lacks packet ∧ (r.drainCompleteFrames atUs).2.frames = [] := by
  obtain ⟨dropped, step, entries⟩ := drain_waiting burst plain waits open_ inTime
  obtain ⟨j, found⟩ := List.mem_iff_getElem?.mp (List.mem_cons_of_mem keyframe inside)
  rw [step]
  refine ⟨lacks_of_entries burst waits.buffers found member fun id frame there => ?_, rfl⟩
  obtain ⟨before, incomplete⟩ := (entries id frame).mp there
  refine ⟨before, fun _ collects => ?_⟩
  rw [collects.complete_iff (burst.stamped delta (List.mem_of_getElem? found)), whole] at incomplete
  contradiction

/-- A frame that has started under a wrapped id is lost when the keyframe is handed on. -/
private theorem lacks_of_wrapped_delta (atUs : ℤ)
    (burst : Burst rtc epoch first (keyframe :: deltas))
    (key : keyframe.keyframe = true) (plain : ∀ delta ∈ deltas, delta.keyframe = false)
    {arrived : List Message} (waits : Waits epoch first (keyframe :: deltas) startUs arrived r)
    (whole : keyframe.whole arrived = true) {delta : SentFrame} (inside : delta ∈ deltas)
    (wrapped : ¬keyframe.frameId < delta.frameId) (member : packet ∈ delta.packets) :
    (r.drainCompleteFrames atUs).1.Lacks packet ∧
      ∀ frame ∈ (r.drainCompleteFrames atUs).2.frames, some packet ∉ frame.packets := by
  obtain ⟨frame, dropped, content, step⟩ := drain_keyframe burst key plain waits whole atUs
  obtain ⟨j, found⟩ := List.mem_iff_getElem?.mp inside
  have place : (keyframe :: deltas)[j + 1]? = some delta := found
  rw [step]
  refine ⟨lacks_of_entries burst waits.buffers place member fun id other there => ?_,
    fun other same filled => ?_⟩
  · obtain ⟨before, order⟩ := OrderedMap.get_of_get_eraseThrough there
    refine ⟨before, fun own _ => wrapped ?_⟩
    rw [burst.ids 0 keyframe rfl, burst.ids _ delta place, ← own,
      show first + UInt32.ofNat 0 = first from UInt32.add_zero first]
    exact Std.compare_eq_lt.mp order
  · obtain rfl := List.mem_singleton.mp same
    rw [show other.packets = keyframe.packets.map some from congrArg Prod.snd content] at filled
    obtain ⟨packet', member', same⟩ := List.mem_map.mp filled
    obtain rfl := Option.some.inj same
    obtain ⟨i, slot⟩ := List.mem_iff_getElem?.mp member
    obtain ⟨i', slot'⟩ := List.mem_iff_getElem?.mp member'
    have front : (keyframe :: deltas)[0]? = some keyframe := rfl
    have same := (burst.place_unique place slot front slot').1
    contradiction

/-! ## Dropping decides -/

/-- The burst comes out whole and in order, and the receiver is synchronized behind it. -/
structure Resynced (rtc : Rtc) (r : Receiver) (frames : List SentFrame) (calls : List ReceiverCall) :
    Prop where
  emitted : (emitted rtc r calls).map FrameAssembly.content = frames.map SentFrame.content
  synchronized : ((receiverCalls rtc).final r calls).stats.synchronized = true

/-- Once the keyframe has been handed on, there is nothing to ask. -/
private theorem everywhere_of_begun {past : List (List SentFrame)}
    (bounded : progress.released ≤ leading (keyframe :: deltas) progress.arrived)
    (begun : 0 < progress.released) : (burstMachine (keyframe :: deltas)).Everywhere
      (DropsNothing keyframe deltas) past progress events := by
  apply (burstMachine _).everywhere_iff_cut.mpr
  intro before event rest _ atUs _ none
  have order := (handedOn_run bounded before).order
  omega

/-- A packet that has arrived and is lost at an event is not handed on any more. -/
private theorem not_emitted_of_lacks (burst : Burst rtc epoch first frames) {timeoutUs : ℤ}
    {arrived : List Message}
    (scheduled : Scheduled frames startUs timeoutUs arrived (event :: events))
    (before : packet ∈ arrived) (lacks : (r.step rtc event).1.Lacks packet)
    (silent : ∀ frame ∈ (r.step rtc event).2.frames, some packet ∉ frame.packets) :
    ∀ frame ∈ ((receiverMachine rtc).outputs r (event :: events)).flatMap Output.frames,
      some packet ∉ frame.packets := by
  have once := scheduled.delivered.nodup_iff.mpr burst.nodup
  have gone : packet ∉ processed events := fun later =>
    (List.nodup_append.mp once).2.2 packet before packet (mem_processed_cons later) rfl
  intro frame out
  rw [Transducer.outputs_cons, List.flatMap_cons] at out
  rcases List.mem_append.mp out with here | there
  · exact silent frame here
  · exact Receiver.lacks_run lacks gone frame there

/-- Where every packet of the burst is handed on, no drain drops a frame. -/
private theorem dropsNothing_of_emitted (burst : Burst rtc epoch first (keyframe :: deltas))
    (positive : 0 < startUs) (key : keyframe.keyframe = true)
    (plain : ∀ delta ∈ deltas, delta.keyframe = false) (fresh : progress.released = 0)
    (waits : Waits epoch first (keyframe :: deltas) startUs progress.arrived r)
    (scheduled : Scheduled (keyframe :: deltas) startUs r.recoveryTimeoutUs progress.arrived events)
    (inOrder : FirstsInOrder (keyframe :: deltas) (progress.arrived.reverse ++ processed events))
    (all : ∀ packet ∈ (keyframe :: deltas).flatMap SentFrame.packets,
      ∃ frame ∈ ((receiverMachine rtc).outputs r events).flatMap Output.frames,
        some packet ∈ frame.packets) (past : List (List SentFrame)) :
    (burstMachine (keyframe :: deltas)).Everywhere (DropsNothing keyframe deltas) past progress events := by
  induction events generalizing progress r past with
  | nil => trivial
  | cons event events ih =>
    have head : DropsNothing keyframe deltas past progress event := by
      rintro atUs rfl _
      split_ifs with whole
      · intro delta inside started
        by_contra wrapped
        obtain ⟨packet, member, arrived⟩ := started
        obtain ⟨lacks, silent⟩ := lacks_of_wrapped_delta atUs burst key plain waits whole inside
          wrapped member
        obtain ⟨frame, out, filled⟩ := all packet
          (List.mem_flatMap.mpr ⟨delta, List.mem_cons_of_mem _ inside, member⟩)
        exact not_emitted_of_lacks burst scheduled arrived lacks silent frame out filled
      · intro delta inside
        by_contra other
        rw [Bool.not_eq_false] at other
        rw [Bool.not_eq_true] at whole
        have zero := (leading_cons_eq_zero_iff deltas).mpr whole
        have inTime := scheduled.drain_inTime (by rw [zero]; exact Nat.succ_pos _)
        obtain ⟨packet, member, arrived⟩ :=
          started_of_whole (burst.stamped delta (List.mem_cons_of_mem _ inside)) other
        obtain ⟨lacks, silent⟩ := lacks_of_whole_delta burst plain waits whole inTime inside other member
        obtain ⟨frame, out, filled⟩ := all packet
          (List.mem_flatMap.mpr ⟨delta, List.mem_cons_of_mem _ inside, member⟩)
        refine not_emitted_of_lacks burst scheduled arrived lacks (fun other here => ?_) frame out filled
        rw [Receiver.step, silent] at here
        contradiction
    refine ⟨head, ?_⟩
    have later := scheduled.tail
    rw [← Receiver.step_recoveryTimeoutUs rtc r event] at later
    have order := firstsInOrder_tail _ inOrder
    rcases waits_step burst positive key plain fresh waits scheduled inOrder head with
      ⟨still, next, silent⟩ | ⟨begun, _⟩
    · refine ih still next later order (fun packet member => ?_) _
      obtain ⟨frame, out, filled⟩ := all packet member
      rw [Transducer.outputs_cons, List.flatMap_cons, receiverMachine_step, silent, List.nil_append] at out
      exact ⟨frame, out, filled⟩
    · refine everywhere_of_begun ?_ begun
      exact (handedOn_run (by omega) [event]).released

theorem waits_start (lost : r.stats.synchronized = false) (unset : r.nextOutputFrameId = none)
    (empty : r.frames = ∅) (epoch : UInt16) (first : UInt32) (frames : List SentFrame) (startUs : ℤ) :
    Waits epoch first frames startUs [] r := by
  refine ⟨lost, fun _ => ⟨unset, empty⟩, fun begun => absurd rfl begun, ?_⟩
  rw [empty]
  exact .empty first frames 0 startUs

/-- A batch without media processes nothing. -/
private theorem processed_further (drainUs pollUs : ℤ) :
    processed [.bindSend, .drain drainUs, .poll pollUs] = [] := rfl

/-- The further batch binds, drains and polls. -/
private theorem runEvents_further (calls : List ReceiverCall) {further : Batch}
    (noMedia : mediaArrivals rtc further.arrivals = []) :
    runEvents rtc (calls ++ [.incoming further]) =
      runEvents rtc calls ++ [.bindSend, .drain further.drainUs, .poll further.pollUs] := by
  rw [runEvents, List.flatMap_append, List.flatMap_singleton, ReceiverCall.events, noMedia]
  rfl

/-- A drain that drops a frame keeps the burst from coming out whole. -/
private theorem dropsNothing_of_resynced (burst : Burst rtc epoch first (keyframe :: deltas))
    (key : keyframe.keyframe = true) (plain : ∀ delta ∈ deltas, delta.keyframe = false)
    (waits : Waits epoch first (keyframe :: deltas) startUs [] r) (positive : 0 < startUs)
    {calls : List ReceiverCall} {further : Batch} (noMedia : mediaArrivals rtc further.arrivals = [])
    (scheduled : Scheduled (keyframe :: deltas) startUs r.recoveryTimeoutUs []
      (runEvents rtc calls ++ [.bindSend, .drain further.drainUs, .poll further.pollUs]))
    (inOrder : FirstsInOrder (keyframe :: deltas) (processed (runEvents rtc calls)))
    (resynced : Resynced rtc r (keyframe :: deltas) (calls ++ [.incoming further])) :
    (burstMachine (keyframe :: deltas)).Everywhere (DropsNothing keyframe deltas) [] {} (runEvents rtc calls) := by
  have order : FirstsInOrder (keyframe :: deltas) (processed (runEvents rtc calls ++
      [.bindSend, .drain further.drainUs, .poll further.pollUs])) := by
    rw [processed_append, processed_further, List.append_nil]
    exact inOrder
  have everywhere := @dropsNothing_of_emitted rtc epoch first keyframe deltas startUs {} r _ burst
    positive key plain rfl waits scheduled order (fun packet member => ?_) []
  · exact ((burstMachine _).everywhere_append.mp everywhere).1
  · obtain ⟨sent, inside, own⟩ := List.mem_flatMap.mp member
    have content := List.mem_map_of_mem (f := SentFrame.content) inside
    rw [← resynced.emitted, emitted_eq] at content
    obtain ⟨frame, out, equal⟩ := List.mem_map.mp content
    rw [runEvents_further calls noMedia] at out
    refine ⟨frame, out, ?_⟩
    rw [show frame.packets = sent.packets.map some from congrArg Prod.snd equal]
    exact List.mem_map_of_mem own

/-- A burst of which nothing is dropped comes out whole, the last of it at the further batch. -/
private theorem resynced_of_dropsNothing (burst : Burst rtc epoch first (keyframe :: deltas))
    (key : keyframe.keyframe = true) (plain : ∀ delta ∈ deltas, delta.keyframe = false)
    (waits : Waits epoch first (keyframe :: deltas) startUs [] r) (positive : 0 < startUs)
    {calls : List ReceiverCall} {further : Batch} (noMedia : mediaArrivals rtc further.arrivals = [])
    (scheduled : Scheduled (keyframe :: deltas) startUs r.recoveryTimeoutUs []
      (runEvents rtc calls ++ [.bindSend, .drain further.drainUs, .poll further.pollUs]))
    (inOrder : FirstsInOrder (keyframe :: deltas) (processed (runEvents rtc calls)))
    (dropsNothing : (burstMachine (keyframe :: deltas)).Everywhere (DropsNothing keyframe deltas) [] {}
      (runEvents rtc calls)) :
    Resynced rtc r (keyframe :: deltas) (calls ++ [.incoming further]) := by
  have within := scheduled.before rfl
  have start : ({} : Progress).released = leading (keyframe :: deltas) ({} : Progress).arrived :=
    (leading_nil burst).symm
  have released := released_of_scheduled start within
  have settled := settled_runEvents rtc start calls
  have arrived := arrived_final (keyframe :: deltas) {} (runEvents rtc calls)
  rcases @waits_run rtc epoch first keyframe deltas startUs r {} _ burst positive key plain rfl waits
    within inOrder [] dropsNothing with ⟨none, _⟩ | ⟨_, number, _, tracks, content⟩
  · rw [released] at none
    contradiction
  have later := @Scheduled.behind _ _ {} _ _ _ scheduled
  rw [← Receiver.final_recoveryTimeoutUs rtc r (runEvents rtc calls)] at later
  have order : FirstsInOrder (keyframe :: deltas) (((burstMachine (keyframe :: deltas)).final {}
      (runEvents rtc calls)).arrived.reverse ++
        processed [.bindSend, .drain further.drainUs, .poll further.pollUs]) := by
    rw [arrived, List.append_nil, List.reverse_reverse, processed_further, List.append_nil]
    exact inOrder
  obtain ⟨last, contents, _⟩ := tracks_run burst positive tracks later
    (everywhere_inOrder _ first ⟨_, number⟩ order [])
  have handed := handedOn_run tracks.released
    [.bindSend, .drain further.drainUs, .poll further.pollUs]
  have done : ((burstMachine (keyframe :: deltas)).final ⟨_, number⟩
      [.bindSend, .drain further.drainUs, .poll further.pollUs]).released =
        (keyframe :: deltas).length := settled.symm.trans released
  refine ⟨?_, ?_⟩
  · rw [emitted_eq, runEvents_further calls noMedia, Transducer.outputs_append, List.flatMap_append, List.map_append,
      content, contents, handed.content, ← List.map_append]
    refine congrArg _ ((drop_take_append _ (Nat.zero_le number) handed.order).trans ?_)
    rw [done, List.take_length]
    rfl
  · rw [final_calls, runEvents_further calls noMedia, Transducer.final_append]
    exact last.synchronized

/-- From any state without synchronization, cursor and buffered frames, a burst of a keyframe and delta
frames that is delivered in full within the timeout, the first packets in frame order, has come out
whole by the next batch exactly when no drain drops a frame of it. -/
theorem resynced_iff (burst : Burst rtc epoch first (keyframe :: deltas))
    (key : keyframe.keyframe = true) (plain : ∀ delta ∈ deltas, delta.keyframe = false)
    (lost : r.stats.synchronized = false) (unset : r.nextOutputFrameId = none) (empty : r.frames = ∅)
    (positive : 0 < startUs) {calls : List ReceiverCall} {further : Batch}
    (noMedia : mediaArrivals rtc further.arrivals = [])
    (scheduled : Scheduled (keyframe :: deltas) startUs r.recoveryTimeoutUs []
      (runEvents rtc (calls ++ [.incoming further])))
    (inOrder : FirstsInOrder (keyframe :: deltas) (processed (runEvents rtc calls))) :
    Resynced rtc r (keyframe :: deltas) (calls ++ [.incoming further]) ↔
      (burstMachine (keyframe :: deltas)).Everywhere (DropsNothing keyframe deltas) [] {}
        (runEvents rtc calls) := by
  have waits := waits_start lost unset empty epoch first (keyframe :: deltas) startUs
  rw [runEvents_further calls noMedia] at scheduled
  constructor
  · exact dropsNothing_of_resynced burst key plain waits positive noMedia scheduled inOrder
  · exact resynced_of_dropsNothing burst key plain waits positive noMedia scheduled inOrder

/-! ## A keyframe and the frame behind it -/

/-- For two frames it is enough that the first packet is one of the first frame. -/
theorem firstsInOrder_pair {delta : SentFrame} {rest : List Message} (own : message ∈ keyframe.packets)
    (other : message ∉ delta.packets) : FirstsInOrder [keyframe, delta] (message :: rest) := by
  intro before next after split j k sent earlier found member there below
  have bound := (List.getElem?_eq_some_iff.mp found).1
  simp only [List.length_cons, List.length_nil] at bound
  obtain rfl : j = 1 := by omega
  obtain rfl : k = 0 := by omega
  obtain rfl : delta = sent := Option.some.inj found
  obtain rfl : keyframe = earlier := Option.some.inj there
  cases before with
  | nil =>
    obtain ⟨rfl, _⟩ := List.cons.inj split
    exact absurd member other
  | cons head before =>
    obtain ⟨rfl, _⟩ := List.cons.inj split
    exact ⟨message, own, List.mem_cons_self ..⟩

/-- A keyframe of two packets and a delta frame of one. -/
def keyThenDelta : List SenderCall :=
  [.setOutgoingFrame 1 true, .outgoing [some (Rtp.packet 1 false [1]), some (Rtp.packet 2 true [2])],
    .setOutgoingFrame 1 false, .outgoing [some (Rtp.packet 3 true [3])]]

/-- The keyframe on the wire. -/
def twoPacketKey : SentFrame where
  epoch := 1
  frameId := 1
  keyframe := true
  packets := [addFrameMetadata Rtc.rfc5761 ⟨1, 1, 0, 2, true⟩ (Rtp.packet 1 false [1]),
    addFrameMetadata Rtc.rfc5761 ⟨1, 1, 1, 2, true⟩ (Rtp.packet 2 true [2])]

/-- The delta frame on the wire. -/
def onePacketDelta : SentFrame where
  epoch := 1
  frameId := 2
  keyframe := false
  packets := [addFrameMetadata Rtc.rfc5761 ⟨1, 2, 0, 1, false⟩ (Rtp.packet 3 true [3])]

theorem sentFrames_keyThenDelta :
    sentFrames Rtc.rfc5761 {} keyThenDelta = [twoPacketKey, onePacketDelta] := by
  decide +kernel

theorem stampable_keyThenDelta : ∀ call ∈ keyThenDelta, call.Stampable Rtc.rfc5761 := by
  intro call member
  simp only [keyThenDelta, List.mem_cons, List.not_mem_nil, or_false] at member
  rcases member with rfl | rfl | rfl | rfl
  · trivial
  · refine ⟨List.length_filter_le _ _ |>.trans (by decide), fun message inside _ => ?_⟩
    simp only [List.mem_cons, Option.some.injEq, List.not_mem_nil, or_false] at inside
    rcases inside with rfl | rfl
    · exact bare_packet 1 false 1
    · exact bare_packet 2 true 2
  · trivial
  · exact stampable_packet 3 true 3

theorem burst_keyThenDelta : Burst Rtc.rfc5761 1 1 [twoPacketKey, onePacketDelta] := by
  have burst := @burst_sentFrames Rtc.rfc5761 1 Rtc.rfc5761_demultiplexes {} _ stampable_keyThenDelta 0 2
    (by decide) (by decide +kernel) (by decide +kernel)
  rw [sentFrames_keyThenDelta] at burst
  exact burst

/-- The keyframe's second packet comes late. -/
def lateKeyPacket : List ReceiverCall :=
  [.incoming ⟨(twoPacketKey.packets.take 1 ++ onePacketDelta.packets).map fun packet =>
      (1000, some packet), 1000, 1000⟩,
    .incoming ⟨(twoPacketKey.packets.drop 1).map fun packet => (2000, some packet), 2000, 2000⟩]

/-- All packets come in one batch. -/
def allTogether : List ReceiverCall := [deliverTogether 1000 [twoPacketKey, onePacketDelta]]

/-- An empty batch. -/
def emptyBatch : Batch := ⟨[], 3000, 3000⟩

/-- When the keyframe is repaired after the delta frame is whole, the delta frame never comes out. -/
theorem lateKeyPacket_not_resynced : Burst Rtc.rfc5761 1 1 [twoPacketKey, onePacketDelta] ∧
    twoPacketKey.keyframe = true ∧ onePacketDelta.keyframe = false ∧
    Scheduled [twoPacketKey, onePacketDelta] 1000 (Receiver.new 1000).recoveryTimeoutUs []
      (runEvents Rtc.rfc5761 (lateKeyPacket ++ [.incoming emptyBatch])) ∧
    FirstsInOrder [twoPacketKey, onePacketDelta] (processed (runEvents Rtc.rfc5761 lateKeyPacket)) ∧
    (emitted Rtc.rfc5761 (.new 1000) (lateKeyPacket ++ [.incoming emptyBatch])).map
      FrameAssembly.frameId = [1] ∧
    ¬Resynced Rtc.rfc5761 (.new 1000) [twoPacketKey, onePacketDelta]
      (lateKeyPacket ++ [.incoming emptyBatch]) := by
  have ids : (emitted Rtc.rfc5761 (.new 1000) (lateKeyPacket ++ [.incoming emptyBatch])).map
      FrameAssembly.frameId = [1] := by
    decide +kernel
  refine ⟨burst_keyThenDelta, rfl, rfl,
    ⟨by decide +kernel, by decide +kernel, by decide +kernel, by decide +kernel⟩, ?_, ids, ?_⟩
  · have order : processed (runEvents Rtc.rfc5761 lateKeyPacket) =
        twoPacketKey.packets.take 1 ++ onePacketDelta.packets ++ twoPacketKey.packets.drop 1 := by
      decide +kernel
    rw [order]
    exact firstsInOrder_pair (by decide +kernel) (by decide +kernel)
  · intro resynced
    have contents := congrArg (List.map Prod.fst) resynced.emitted
    rw [List.map_map, List.map_map] at contents
    rw [show Prod.fst ∘ FrameAssembly.content = FrameAssembly.frameId from rfl, ids] at contents
    exact absurd contents (by decide)

/-- Delivered together, both frames are out after the next batch. -/
theorem resynced_iff_allTogether :
    (emitted Rtc.rfc5761 (.new 1000) (allTogether ++ [.incoming emptyBatch])).map
      FrameAssembly.frameId = [1, 2] ∧
    (Resynced Rtc.rfc5761 (.new 1000) [twoPacketKey, onePacketDelta]
        (allTogether ++ [.incoming emptyBatch]) ↔
      (burstMachine [twoPacketKey, onePacketDelta]).Everywhere
        (DropsNothing twoPacketKey [onePacketDelta]) [] {} (runEvents Rtc.rfc5761 allTogether)) := by
  refine ⟨by decide +kernel, ?_⟩
  have order : processed (runEvents Rtc.rfc5761 allTogether) =
      twoPacketKey.packets ++ onePacketDelta.packets := by
    decide +kernel
  refine @resynced_iff Rtc.rfc5761 1 1 twoPacketKey [onePacketDelta] 1000 (.new 1000)
    burst_keyThenDelta rfl (by decide) rfl rfl rfl (by decide) _ emptyBatch rfl
    ⟨by decide +kernel, by decide +kernel, by decide +kernel, by decide +kernel⟩ ?_
  rw [order]
  exact firstsInOrder_pair (by decide +kernel) (by decide +kernel)

end WeakNetVideo
