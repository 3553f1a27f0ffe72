import WeakNetVideo.Proofs.BurstProgress

/-! # A whole keyframe restores the synchronization

Whatever a receiver has buffered and lost, a keyframe behind everything that has arrived so far gets it going
again, if all of its packets arrive before the first of them is overdue: eviction takes the least id, the
keyframe has the greatest, and no drain drops it before it is whole.
-/

namespace WeakNetVideo

variable {rtc : Rtc} {key : SentFrame} {startUs atUs : ℤ} {arrived : List Message} {message : Message}
  {r : Receiver} {metadata : FrameMetadata}

/-! ## Eviction -/

namespace Receiver

/-- The entry of the greatest id is not evicted. -/
theorem get_evict_of_top {fuel : ℕ} {id : UInt32} {frame : FrameAssembly} (found : r.frames[id]? = some frame)
    (top : ∀ (other : UInt32) (entry : FrameAssembly), r.frames[other]? = some entry → other ≤ id) :
    (evict fuel r).frames[id]? = some frame := by
  induction fuel generalizing r with
  | zero => exact found
  | succ fuel ih =>
    simp only [evict]
    split_ifs with crowded
    · obtain ⟨first, value, _, erased, above⟩ := OrderedMap.eraseFirst_eq (m := r.frames) (by omega)
      have other : first ≠ id := by
        rintro rfl
        have single : r.frames.size ≤ [first].length := by
          apply OrderedMap.size_le_of_keys
          intro other entry there
          by_contra apart
          rw [List.mem_singleton] at apart
          have greater : first < other := Std.compare_eq_lt.mp (above other entry there apart)
          exact absurd greater (UInt32.not_lt.mpr (top other entry there))
        simp only [List.length_singleton, maxBufferedFrames] at single crowded
        omega
      apply ih
      · rw [markUnsynchronized_frames, erased, OrderedMap.get_erase_of_ne other]
        exact found
      · intro other entry there
        rw [markUnsynchronized_frames, erased] at there
        exact top other entry (OrderedMap.get_of_get_erase there).1
    · exact found

/-- Nothing at or above an id is buffered. -/
def Below (bound : UInt32) (r : Receiver) : Prop :=
  ∀ (id : UInt32) (frame : FrameAssembly), r.frames[id]? = some frame → id < bound

/-- A packet of a frame below a bound. -/
def NamesBelow (rtc : Rtc) (bound : UInt32) (event : ReceiverEvent) : Prop :=
  ∀ atUs message metadata, event = .packet atUs message → validMetadata rtc message = some metadata →
    metadata.frameId < bound

private theorem below_step {bound : UInt32} (below : r.Below bound) (event : ReceiverEvent)
    (names : NamesBelow rtc bound event) : (r.step rtc event).1.Below bound := by
  cases event with
  | packet atUs message =>
    intro id frame found
    simp only [step] at found
    cases valid : validMetadata rtc message with
    | none =>
      rw [processReceiverPacket_of_invalid valid] at found
      exact below id frame found
    | some metadata =>
      have inside := names atUs message metadata rfl valid
      rcases get_processReceiverPacket valid found with ⟨adopted, _⟩ | ⟨_, lower⟩ | ⟨rfl, _⟩
      · exact below id frame (get_adoptEpoch adopted).1
      · exact UInt32.lt_trans lower inside
      · exact inside
  | drain atUs => exact fun id frame found => below id frame ((drain_spec r atUs).2.2.1 id frame found)
  | poll atUs =>
    intro id frame found
    obtain ⟨before, nackUs, there, _⟩ := (poll_polled r atUs).get found
    exact below id before there
  | invalidateSync =>
    intro id frame found
    simp [step, invalidateSync] at found
  | bindSend => exact below
  | recordPliSent => exact below

theorem below_run {bound : UInt32} (below : r.Below bound) {events : List ReceiverEvent}
    (names : ∀ event ∈ events, NamesBelow rtc bound event) : ((receiverMachine rtc).final r events).Below bound :=
  (receiverMachine rtc).preserves (I := Below bound) (fun _ event admitted holds => below_step holds event admitted)
    below names

end Receiver

/-! ## Waiting for the keyframe -/

/-- An unsynchronized receiver with nothing above the keyframe, and of the keyframe what has arrived. -/
structure Awaits (key : SentFrame) (startUs : ℤ) (arrived : List Message) (r : Receiver) : Prop where
  lost : r.stats.synchronized = false
  labelled : r.Labelled
  top : ∀ (id : UInt32) (frame : FrameAssembly), r.frames[id]? = some frame → id ≤ key.frameId
  own : ∀ frame : FrameAssembly, r.frames[key.frameId]? = some frame →
    key.Started arrived ∧ Collects key arrived frame ∧ startUs ≤ frame.firstSeenUs
  started : key.Started arrived → r.receiverEpoch = some key.epoch ∧ ∃ frame, r.frames[key.frameId]? = some frame

/-- A packet that reads as nothing, as one of the keyframe, or as one of an earlier frame of its epoch. -/
inductive Admits (rtc : Rtc) (key : SentFrame) (message : Message) : Prop where
  | unread (unread : Receiver.validMetadata rtc message = none) (other : message ∉ key.packets)
  | own (i : ℕ) (slot : key.packets[i]? = some message)
    (valid : Receiver.validMetadata rtc message = some (key.stamp i))
  | earlier (metadata : FrameMetadata) (valid : Receiver.validMetadata rtc message = some metadata)
    (epoch : metadata.epoch = key.epoch) (below : metadata.frameId < key.frameId) (other : message ∉ key.packets)

/-- What hands a keyframe on that is no newer than this one. -/
structure RestoresSync (key : SentFrame) (output : Output) : Prop where
  restored : output.syncRestored = 1
  handedOn : ∃ frame : FrameAssembly, output.frames = [frame] ∧ frame.keyframe = true ∧
    frame.frameId ≤ key.frameId ∧ keyframeAck frame.epoch frame.frameId ∈ output.sent

namespace Awaits

theorem of_not_mem (awaits : Awaits key startUs arrived r) (other : message ∉ key.packets) :
    Awaits key startUs (message :: arrived) r := by
  refine ⟨awaits.lost, awaits.labelled, awaits.top, fun frame found => ?_, fun started => ?_⟩
  · obtain ⟨started, collects, seen⟩ := awaits.own frame found
    exact ⟨(started_cons_iff other).mpr started, collects.of_not_mem other, seen⟩
  · exact awaits.started ((started_cons_iff other).mp started)

/-- Adopting the keyframe's epoch. -/
private theorem adopt (awaits : Awaits key startUs arrived r) (current : metadata.epoch = key.epoch) :
    Awaits key startUs arrived (r.adoptEpoch metadata) := by
  rcases r.adoptEpoch_cases metadata with ⟨_, stays⟩ | clears
  · rw [stays]
    exact ⟨awaits.lost, awaits.labelled, awaits.top, awaits.own, awaits.started⟩
  · have none : ∀ (id : UInt32) (frame : FrameAssembly), (r.adoptEpoch metadata).frames[id]? ≠ some frame := by
      intro id frame found
      rw [clears] at found
      simp at found
    refine ⟨by rw [clears]; rfl, fun id frame found => absurd found (none id frame),
      fun id frame found => absurd found (none id frame), fun frame found => absurd found (none _ frame),
      fun started => ?_⟩
    obtain ⟨epoch, frame, found⟩ := awaits.started started
    rw [← current] at epoch
    rw [Receiver.adoptEpoch_of_current epoch]
    exact ⟨current ▸ epoch, frame, found⟩

/-- Placeholders below the keyframe. -/
private theorem place (awaits : Awaits key startUs arrived r) (current : r.receiverEpoch = some key.epoch)
    (epoch : metadata.epoch = key.epoch) (below : metadata.frameId ≤ key.frameId) :
    Awaits key startUs arrived (r.withPlaceholders atUs metadata) := by
  obtain ⟨frames, gap⟩ := Receiver.withPlaceholders_eq r atUs metadata
  have same : (r.withPlaceholders atUs metadata).receiverEpoch = some key.epoch := by
    rw [gap]
    exact current
  refine ⟨by rw [gap]; exact awaits.lost, fun id frame found => ?_, fun id frame found => ?_,
    fun frame found => ?_, fun started => ?_⟩
  · rcases Receiver.get_withPlaceholders found with old | ⟨_, rfl, _⟩
    · rw [same, ← current]
      exact awaits.labelled id frame old
    · exact ⟨rfl, by rw [same, ← epoch]; rfl⟩
  · rcases Receiver.get_withPlaceholders found with old | ⟨_, _, lower, _⟩
    · exact awaits.top id frame old
    · exact UInt32.le_of_lt (UInt32.lt_of_lt_of_le lower below)
  · rcases Receiver.get_withPlaceholders found with old | ⟨_, _, lower, _⟩
    · exact awaits.own frame old
    · exact absurd (UInt32.lt_of_lt_of_le lower below) (UInt32.lt_irrefl _)
  · obtain ⟨_, frame, found⟩ := awaits.started started
    exact ⟨same, frame, Receiver.get_withPlaceholders_of_some found⟩

/-- Storing a packet of an earlier frame. -/
private theorem storeEarlier (awaits : Awaits key startUs arrived r) (current : r.receiverEpoch = some key.epoch)
    (epoch : metadata.epoch = key.epoch) (below : metadata.frameId < key.frameId) :
    Awaits key startUs arrived (r.storePacket atUs metadata message) := by
  have other : metadata.frameId ≠ key.frameId := fun same => UInt32.lt_irrefl _ (same ▸ below)
  obtain ⟨stays, _, _, entries⟩ := Receiver.storePacket_spec r atUs metadata message
  have same : (r.storePacket atUs metadata message).receiverEpoch = some key.epoch := stays.trans current
  refine ⟨?_, fun id frame found => ?_, fun id frame found => ?_, fun frame found => ?_, fun started => ?_⟩
  · by_contra kept
    rw [Bool.not_eq_false] at kept
    have stored := congrArg (fun s => s.stats.synchronized) (Receiver.storePacket_synchronized kept).2
    rw [kept] at stored
    exact absurd (stored.trans awaits.lost) (by decide)
  · rcases entries id frame found with ⟨_, old⟩ | ⟨rfl, agrees, rfl⟩
    · rw [same, ← current]
      exact awaits.labelled id frame old
    · refine ⟨Receiver.assemblyFor_frameId fun frame there => (awaits.labelled _ frame there).1, ?_⟩
      rw [same, ← epoch, ← agrees.2.1]
      rfl
  · rcases entries id frame found with ⟨_, old⟩ | ⟨rfl, _⟩
    · exact awaits.top id frame old
    · exact UInt32.le_of_lt below
  · rcases entries _ frame found with ⟨_, old⟩ | ⟨here, _⟩
    · exact awaits.own frame old
    · exact absurd here.symm other
  · obtain ⟨_, frame, found⟩ := awaits.started started
    refine ⟨same, frame, ?_⟩
    rcases r.storePacket_cases atUs metadata message with ⟨_, stored, stored_eq, step⟩ | ⟨_, dropped⟩
    · rw [step]
      apply Receiver.get_evict_of_top
      · rw [stored_eq, OrderedMap.get_insert_of_ne other]
        exact found
      · intro id entry there
        rw [stored_eq] at there
        by_cases here : metadata.frameId = id
        · exact here ▸ UInt32.le_of_lt below
        · rw [OrderedMap.get_insert_of_ne here] at there
          exact awaits.top id entry there
    · rw [dropped, Receiver.markUnsynchronized_frames, OrderedMap.get_erase_of_ne other]
      exact found

/-- A packet that comes again finds its slot filled. -/
private theorem refill {frame : FrameAssembly} {i : ℕ} (stamped : key.Stamped rtc)
    (slot : key.packets[i]? = some message) (again : message ∈ arrived) (collects : Collects key arrived frame) :
    Collects key (message :: arrived) (Receiver.fillSlot (key.stamp i) message frame) := by
  have inside := (List.getElem?_eq_some_iff.mp slot).1
  have bounded := stamped.bounded
  have index : (key.stamp i).packetIndex.toNat = i :=
    UInt16.toNat_ofNat_of_lt' (by simp only [UInt16.size]; omega)
  have filled : ((key.slots arrived).getD i none).isSome = true := by
    rw [SentFrame.slots, List.getD_eq_getElem?_getD, List.getElem?_map, slot]
    simp [again]
  have same : key.slots (message :: arrived) = key.slots arrived := by
    apply List.map_congr_left
    intro packet _
    by_cases here : packet = message
    · subst here
      simp [again]
    · simp only [List.mem_cons, here, false_or]
  refine ⟨collects.frameId, collects.epoch, collects.keyframe, collects.count, ?_⟩
  simp only [Receiver.fillSlot, index, collects.packets, filled, if_true, same]

/-- The keyframe with one more packet. -/
private theorem fill (burst : Burst rtc key.epoch key.frameId [key]) {frame : FrameAssembly} {i : ℕ}
    (slot : key.packets[i]? = some message) (collects : Collects key arrived frame) :
    Collects key (message :: arrived) (Receiver.fillSlot (key.stamp i) message frame) := by
  rcases Classical.em (message ∈ arrived) with again | fresh
  · exact refill (burst.stamped key (List.mem_cons_self ..)) slot again collects
  · exact collects.fillSlot burst (j := 0) rfl slot fresh

/-- Storing a packet of the keyframe. -/
private theorem storeOwn (burst : Burst rtc key.epoch key.frameId [key]) (positive : 0 < startUs)
    (inTime : startUs ≤ atUs) (awaits : Awaits key startUs arrived r) (current : r.receiverEpoch = some key.epoch)
    {i : ℕ} (slot : key.packets[i]? = some message) :
    Awaits key startUs (message :: arrived) (r.storePacket atUs (key.stamp i) message) := by
  have stamped := burst.stamped key (List.mem_cons_self ..)
  have own : Collects key arrived (r.assemblyFor atUs (key.stamp i) message) ∧
      startUs ≤ (r.assemblyFor atUs (key.stamp i) message).firstSeenUs := by
    cases found : r.frames[(key.stamp i).frameId]? with
    | none =>
      rw [Receiver.assemblyFor_of_none found]
      refine ⟨collects_openAssembly stamped fun started => ?_, inTime⟩
      obtain ⟨_, frame, there⟩ := awaits.started started
      have absent := found.symm.trans there
      contradiction
    | some frame =>
      obtain ⟨_, collects, seen⟩ := awaits.own frame found
      rw [Receiver.assemblyFor_of_get found (by omega)]
      exact ⟨collects, seen⟩
  obtain ⟨collects, seen⟩ := own
  obtain ⟨stays, _, _, entries⟩ := Receiver.storePacket_spec r atUs (key.stamp i) message
  obtain ⟨stored, stored_eq, step⟩ := Receiver.storePacket_of_matches (collects.matches (i := i))
  have same : (r.storePacket atUs (key.stamp i) message).receiverEpoch = some key.epoch := stays.trans current
  have begun : key.Started (message :: arrived) := ⟨message, List.mem_of_getElem? slot, List.mem_cons_self ..⟩
  refine ⟨?_, fun id frame found => ?_, fun id frame found => ?_, fun frame found => ?_, fun _ => ?_⟩
  · by_contra kept
    rw [Bool.not_eq_false] at kept
    have again := congrArg (fun s => s.stats.synchronized) (Receiver.storePacket_synchronized kept).2
    rw [kept] at again
    exact absurd (again.trans awaits.lost) (by decide)
  · rcases entries id frame found with ⟨_, old⟩ | ⟨rfl, agrees, rfl⟩
    · rw [same, ← current]
      exact awaits.labelled id frame old
    · exact ⟨collects.frameId, same.trans (congrArg some collects.epoch.symm)⟩
  · rcases entries id frame found with ⟨_, old⟩ | ⟨rfl, _⟩
    · exact awaits.top id frame old
    · exact UInt32.le_refl _
  · rcases entries _ frame found with ⟨other, _⟩ | ⟨_, _, rfl⟩
    · exact absurd rfl other
    · exact ⟨begun, fill burst slot collects, seen⟩
  · refine ⟨same, Receiver.fillSlot (key.stamp i) message (r.assemblyFor atUs (key.stamp i) message), ?_⟩
    rw [step]
    apply Receiver.get_evict_of_top
    · rw [stored_eq]
      exact Std.ExtTreeMap.getElem?_insert_self
    · intro id entry there
      rw [stored_eq] at there
      by_cases here : (key.stamp i).frameId = id
      · exact here ▸ UInt32.le_refl _
      · rw [OrderedMap.get_insert_of_ne here] at there
        exact awaits.top id entry there

/-- A packet keeps the receiver waiting. -/
theorem packet (burst : Burst rtc key.epoch key.frameId [key]) (positive : 0 < startUs) (inTime : startUs ≤ atUs)
    (awaits : Awaits key startUs arrived r) (admits : Admits rtc key message) :
    Awaits key startUs (message :: arrived) (r.processReceiverPacket rtc atUs message) := by
  cases admits with
  | unread unread other =>
    rw [Receiver.processReceiverPacket_of_invalid unread]
    have kept := awaits.of_not_mem other
    exact ⟨rfl, kept.labelled, kept.top, kept.own, kept.started⟩
  | own i slot valid =>
    have adopted := awaits.adopt (show (key.stamp i).epoch = key.epoch from rfl)
    have current := Receiver.adoptEpoch_receiverEpoch r (key.stamp i)
    rw [Receiver.processReceiverPacket_of_valid valid]
    obtain ⟨frames, gap⟩ := Receiver.withPlaceholders_eq (r.adoptEpoch (key.stamp i)) atUs (key.stamp i)
    apply storeOwn burst positive inTime (adopted.place current rfl (UInt32.le_refl _)) _ slot
    rw [gap]
    exact current
  | earlier metadata valid epoch below other =>
    have adopted := awaits.adopt epoch
    have current := Receiver.adoptEpoch_receiverEpoch r metadata
    rw [epoch] at current
    rw [Receiver.processReceiverPacket_of_valid valid]
    obtain ⟨frames, gap⟩ := Receiver.withPlaceholders_eq (r.adoptEpoch metadata) atUs metadata
    apply of_not_mem _ other
    apply storeEarlier (adopted.place current epoch (UInt32.le_of_lt below)) _ epoch below
    rw [gap]
    exact current

/-- A drain in time restores the synchronization, or the keyframe is not whole and stays. -/
theorem drain (stamped : key.Stamped rtc) (isKey : key.keyframe = true) (awaits : Awaits key startUs arrived r)
    (inTime : atUs < startUs + r.recoveryTimeoutUs) : RestoresSync key (r.drainCompleteFrames atUs).2 ∨
      Awaits key startUs arrived (r.drainCompleteFrames atUs).1 ∧ key.whole arrived = false := by
  rcases Receiver.drain_unsynchronized atUs awaits.lost with
    ⟨dropped, none, step⟩ | ⟨id, frame, dropped, found, point, _, step⟩
  · have open_ : key.whole arrived = false := by
      by_contra whole
      rw [Bool.not_eq_false] at whole
      obtain ⟨current, frame, found⟩ := awaits.started (started_of_whole stamped whole)
      obtain ⟨_, collects, _⟩ := awaits.own frame found
      have point := none _ frame found
      rw [Receiver.IsSyncPoint, collects.complete_iff stamped, whole, collects.keyframe, isKey] at point
      contradiction
    refine .inr ⟨?_, open_⟩
    rw [step]
    refine ⟨awaits.lost, fun id frame found => awaits.labelled id frame (Receiver.get_dropEntries.mp found).1,
      fun id frame found => awaits.top id frame (Receiver.get_dropEntries.mp found).1,
      fun frame found => awaits.own frame (Receiver.get_dropEntries.mp found).1, fun started => ?_⟩
    obtain ⟨current, frame, found⟩ := awaits.started started
    refine ⟨current, frame, Receiver.get_dropEntries.mpr ⟨found, fun other member => ?_⟩⟩
    obtain rfl := Option.some.inj (found.symm.trans (Std.ExtTreeMap.mem_toList_iff_getElem?_eq_some.mp member))
    obtain ⟨_, collects, seen⟩ := awaits.own frame found
    simp only [Receiver.Droppable, collects.complete_iff stamped, open_, Bool.false_or, decide_eq_false_iff_not]
    omega
  · refine .inl ?_
    rw [step]
    have own := awaits.labelled id frame found
    simp only [Receiver.IsSyncPoint, Bool.and_eq_true] at point
    exact ⟨rfl, frame, rfl, point.2, own.1 ▸ awaits.top id frame found, List.mem_singleton.mpr rfl⟩

/-- Packets one after the other. -/
private theorem packets (burst : Burst rtc key.epoch key.frameId [key]) (positive : 0 < startUs)
    {media : List (ℤ × Message)} (inTime : ∀ arrival ∈ media, startUs ≤ arrival.1)
    (admits : ∀ arrival ∈ media, Admits rtc key arrival.2) (awaits : Awaits key startUs arrived r) :
    Awaits key startUs ((media.map Prod.snd).reverse ++ arrived)
      ((receiverMachine rtc).final r (packetEvents media)) := by
  induction media generalizing r arrived with
  | nil => exact awaits
  | cons arrival media ih =>
    obtain ⟨here, later⟩ := List.forall_mem_cons.mp inTime
    obtain ⟨own, others⟩ := List.forall_mem_cons.mp admits
    have next := ih later others (awaits.packet burst positive here own)
    rw [List.map_cons, List.reverse_cons, List.append_assoc]
    exact next

theorem polled {s : Receiver} (awaits : Awaits key startUs arrived r) (polled : Receiver.Polled r s)
    (labelled : s.Labelled) : Awaits key startUs arrived s := by
  refine ⟨polled.synchronized.trans awaits.lost, labelled, fun id frame found => ?_, fun frame found => ?_,
    fun started => ?_⟩
  · obtain ⟨before, nackUs, there, _⟩ := polled.get found
    exact awaits.top id before there
  · obtain ⟨before, nackUs, there, rfl⟩ := polled.get found
    obtain ⟨started, collects, seen⟩ := awaits.own before there
    exact ⟨started, ⟨collects.frameId, collects.epoch, collects.keyframe, collects.count, collects.packets⟩, seen⟩
  · obtain ⟨current, frame, found⟩ := awaits.started started
    obtain ⟨after, nackUs, there, _⟩ := polled.symm.get found
    exact ⟨polled.epoch.trans current, after, there⟩

/-- A batch with packets of the keyframe restores the synchronization, or the receiver goes on waiting and the
keyframe is not whole. -/
private theorem batch (burst : Burst rtc key.epoch key.frameId [key]) (isKey : key.keyframe = true)
    (positive : 0 < startUs) {batch : Batch}
    (inTime : ∀ arrival ∈ mediaArrivals rtc batch.arrivals, startUs ≤ arrival.1)
    (admits : ∀ arrival ∈ mediaArrivals rtc batch.arrivals, Admits rtc key arrival.2)
    (early : batch.drainUs < startUs + r.recoveryTimeoutUs) (awaits : Awaits key startUs arrived r) :
    RestoresSync key (r.receiverIncoming rtc batch).2.output ∨
      Awaits key startUs (((mediaArrivals rtc batch.arrivals).map Prod.snd).reverse ++ arrived)
        (r.receiverIncoming rtc batch).1 ∧
      key.whole (((mediaArrivals rtc batch.arrivals).map Prod.snd).reverse ++ arrived) = false := by
  have bound : Awaits key startUs arrived { r with receiverSend := true } :=
    ⟨awaits.lost, awaits.labelled, awaits.top, awaits.own, awaits.started⟩
  have received := bound.packets burst positive inTime admits
  have config := packetEvents_config rtc (mediaArrivals rtc batch.arrivals) { r with receiverSend := true }
  simp only [Receiver.receiverIncoming, receiveArrivals_eq]
  generalize (receiverMachine rtc).final { r with receiverSend := true }
    (packetEvents (mediaArrivals rtc batch.arrivals)) = s at received config
  have timeout : s.recoveryTimeoutUs = r.recoveryTimeoutUs := config.timeout
  rcases received.drain (burst.stamped key (List.mem_cons_self ..)) isKey (timeout ▸ early) with
    restores | ⟨waits, open_⟩
  · obtain ⟨frame, frames, keyframe, below, sent⟩ := restores.handedOn
    exact .inl ⟨restores.restored, frame, frames, keyframe, below, List.mem_append_left _ sent⟩
  · have poll := Receiver.receiverPoll_polled (s.drainCompleteFrames batch.drainUs).1 batch.pollUs
    refine .inr ⟨waits.polled poll fun id frame found => ?_, open_⟩
    obtain ⟨before, nackUs, there, rfl⟩ := poll.get found
    rw [poll.epoch]
    exact waits.labelled id before there

end Awaits

/-! ## Whole runs -/

/-- A call before the time at which the keyframe is overdue, that does not give the buffer up. -/
def ReceiverCall.Within (startUs timeoutUs : ℤ) : ReceiverCall → Prop
  | .incoming batch => (∀ arrival ∈ batch.arrivals, startUs ≤ arrival.1) ∧ batch.drainUs < startUs + timeoutUs
  | .invalidateSync => False
  | _ => True

private theorem mem_mediaArrivals {arrivals : List (ℤ × MessagePtr)} {arrival : ℤ × Message}
    (media : arrival ∈ mediaArrivals rtc arrivals) : (arrival.1, some arrival.2) ∈ arrivals := by
  obtain ⟨⟨atUs, pointer⟩, inside, there⟩ := List.mem_filterMap.mp media
  simp only at there
  split_ifs at there
  obtain ⟨message, rfl, rfl⟩ := Option.map_eq_some_iff.mp there
  exact inside

/-- The packets that a call processes. -/
private theorem processed_events (batch : Batch) : processed (ReceiverCall.events rtc (.incoming batch)) =
    (mediaArrivals rtc batch.arrivals).map Prod.snd := by
  have media : ∀ arrivals : List (ℤ × Message), processed (packetEvents arrivals) = arrivals.map Prod.snd := by
    intro arrivals
    induction arrivals with
    | nil => rfl
    | cons arrival arrivals ih => exact congrArg (arrival.2 :: ·) ih
  rw [ReceiverCall.events, ← List.singleton_append, processed_append, processed_append, media]
  exact List.append_nil _

/-- A run that brings the keyframe in time restores the synchronization. -/
private theorem restores_run (burst : Burst rtc key.epoch key.frameId [key]) (isKey : key.keyframe = true)
    (positive : 0 < startUs) {calls : List ReceiverCall} {timeoutUs : ℤ} (timeout : r.recoveryTimeoutUs = timeoutUs)
    (within : ∀ call ∈ calls, call.Within startUs timeoutUs)
    (admits : ∀ batch, .incoming batch ∈ calls → ∀ arrival ∈ mediaArrivals rtc batch.arrivals,
      Admits rtc key arrival.2)
    (awaits : Awaits key startUs arrived r) (open_ : key.whole arrived = false)
    (whole : key.whole ((processed (runEvents rtc calls)).reverse ++ arrived) = true) :
    ∃ delivery ∈ (receiverCalls rtc).outputs r calls, RestoresSync key delivery.output := by
  induction calls generalizing r arrived with
  | nil => exact absurd (whole.symm.trans open_) (by decide)
  | cons call calls ih =>
    obtain ⟨here, later⟩ := List.forall_mem_cons.mp within
    have others := fun batch member => admits batch (List.mem_cons_of_mem _ member)
    have config : (r.call rtc call).1.recoveryTimeoutUs = timeoutUs := by
      rw [← timeout, ← receiverCalls_step, show ((receiverCalls rtc).step r call).1 =
        (receiverCalls rtc).final r [call] from rfl, final_calls, Receiver.final_recoveryTimeoutUs]
    rw [runEvents, List.flatMap_cons, processed_append, List.reverse_append, List.append_assoc] at whole
    rw [Transducer.outputs_cons]
    cases call with
    | incoming batch =>
      have media := fun arrival member => admits batch (List.mem_cons_self ..) arrival member
      rw [processed_events] at whole
      rcases awaits.batch burst isKey positive (fun arrival member => here.1 _ (mem_mediaArrivals member)) media
          (timeout ▸ here.2) with restores | ⟨waits, still⟩
      · exact ⟨_, List.mem_cons_self .., restores⟩
      · obtain ⟨delivery, member, restores⟩ := ih config later others waits still whole
        exact ⟨delivery, List.mem_cons_of_mem _ member, restores⟩
    | poll atUs =>
      have poll := Receiver.poll_polled r atUs
      obtain ⟨delivery, member, restores⟩ := ih config later others
        (awaits.polled poll (Receiver.labelled_poll awaits.labelled atUs)) open_ whole
      exact ⟨delivery, List.mem_cons_of_mem _ member, restores⟩
    | invalidateSync => exact absurd here id
    | recordPliSent =>
      obtain ⟨delivery, member, restores⟩ := ih config later others
        ⟨awaits.lost, awaits.labelled, awaits.top, awaits.own, awaits.started⟩ open_ whole
      exact ⟨delivery, List.mem_cons_of_mem _ member, restores⟩

/-! ## Frames of a sender -/

/-- A packet of the keyframe, or of an earlier frame of its epoch. -/
private theorem admits_of_mem {sent : List SentFrame} (wire : Wire rtc sent)
    (burst : Burst rtc key.epoch key.frameId [key]) {frame : SentFrame} (inside : frame ∈ sent)
    (own : message ∈ frame.packets)
    (order : frame = key ∨ frame.epoch = key.epoch ∧ frame.frameId < key.frameId) : Admits rtc key message := by
  cases valid : Receiver.validMetadata rtc message with
  | none =>
    refine .unread valid fun member => ?_
    obtain ⟨i, slot⟩ := List.mem_iff_getElem?.mp member
    have read := burst.validMetadata (List.mem_cons_self ..) slot
    rw [valid] at read
    contradiction
  | some metadata =>
    obtain ⟨i, slot, rfl, _⟩ := validMetadata_of_mem (wire.stamped frame inside) own valid
    rcases order with rfl | ⟨epoch, below⟩
    · exact .own i slot valid
    · refine .earlier _ valid epoch below fun member => ?_
      obtain ⟨j, slot'⟩ := List.mem_iff_getElem?.mp member
      have read := burst.validMetadata (List.mem_cons_self ..) slot'
      have same : frame.frameId = key.frameId :=
        congrArg FrameMetadata.frameId (Option.some.inj (valid.symm.trans read))
      exact absurd (same ▸ below) (UInt32.lt_irrefl _)

/-- In a run from the start, an earlier frame has a lower id. -/
private theorem frameId_lt_of_split {calls : List SenderCall} {earlier later : List SentFrame}
    (short : (sentFrames rtc {} calls).length < 2 ^ 32)
    (split : sentFrames rtc {} calls = earlier ++ key :: later) {frame : SentFrame} (inside : frame ∈ earlier) :
    frame.frameId < key.frameId := by
  obtain ⟨i, found⟩ := List.mem_iff_getElem?.mp inside
  have bound := (List.getElem?_eq_some_iff.mp found).1
  have here : (sentFrames rtc {} calls)[i]? = some frame := by
    rw [split, List.getElem?_append_left bound, found]
  have there : (sentFrames rtc {} calls)[earlier.length]? = some key := by
    rw [split, List.getElem?_append_right (Nat.le_refl _), Nat.sub_self]
    rfl
  have total := (List.getElem?_eq_some_iff.mp there).1
  have one : (1 : UInt32).toNat = 1 := rfl
  rw [frameId_sentFrames rtc {} calls i frame here, frameId_sentFrames rtc {} calls _ key there,
    UInt32.lt_iff_toNat_lt, UInt32.toNat_add, UInt32.toNat_add,
    UInt32.toNat_ofNat_of_lt' (by simp only [UInt32.size]; omega),
    UInt32.toNat_ofNat_of_lt' (by simp only [UInt32.size]; omega), one, Nat.mod_eq_of_lt (by omega),
    Nat.mod_eq_of_lt (by omega)]
  omega

/-- Behind any run over earlier frames only, a receiver without synchronization gets it back from a keyframe
all of whose packets arrive before the first of them is overdue, in whatever batches and order, however often,
and among whatever earlier frames of its epoch: it hands a keyframe on and acknowledges it. -/
theorem restored_by_keyframe (demultiplexes : rtc.DemultiplexesBySecondByte) {senderRun : List SenderCall}
    (stampable : ∀ call ∈ senderRun, call.Stampable rtc)
    (short : (sentFrames rtc {} senderRun).length < 2 ^ 32) {earlier later : List SentFrame}
    (split : sentFrames rtc {} senderRun = earlier ++ key :: later) (isKey : key.keyframe = true)
    (readable : ∀ packet ∈ key.packets, (readFrameMetadata rtc packet).isSome = true) (recoveryTimeoutMs : ℤ)
    {before during : List ReceiverCall} (old : Delivers rtc earlier before)
    (lost : ((receiverCalls rtc).final (.new recoveryTimeoutMs) before).stats.synchronized = false)
    (delivers : Delivers rtc (earlier.filter (fun frame => frame.epoch = key.epoch) ++ [key]) during)
    (positive : 0 < startUs)
    (within : ∀ call ∈ during, call.Within startUs (Receiver.new recoveryTimeoutMs).recoveryTimeoutUs)
    (whole : ∀ packet ∈ key.packets, packet ∈ processed (runEvents rtc during)) :
    ∃ delivery ∈ (receiverCalls rtc).outputs ((receiverCalls rtc).final (.new recoveryTimeoutMs) before) during,
      RestoresSync key delivery.output := by
  have wire := wire_sentFrames demultiplexes stampable short
  have member : key ∈ sentFrames rtc {} senderRun := by
    rw [split]
    exact List.mem_append_right _ (List.mem_cons_self ..)
  have front : ∀ frame ∈ earlier, frame ∈ sentFrames rtc {} senderRun := fun frame inside => by
    rw [split]
    exact List.mem_append_left _ inside
  have burst := burst_single wire member readable
  have stamped := wire.stamped key member
  rw [final_calls] at lost ⊢
  have below : ((receiverMachine rtc).final (.new recoveryTimeoutMs) (runEvents rtc before)).Below key.frameId := by
    apply Receiver.below_run
    · intro id frame found
      simp [Receiver.new] at found
    · rintro event inside atUs message metadata rfl valid
      obtain ⟨frame, sent, own⟩ := delivered_runEvents old _ inside atUs message rfl
      obtain ⟨i, _, rfl, _⟩ := validMetadata_of_mem (wire.stamped frame (front frame sent)) own valid
      exact frameId_lt_of_split short split sent
  have labelled : ((receiverMachine rtc).final (.new recoveryTimeoutMs) (runEvents rtc before)).Labelled :=
    (receiverMachine rtc).preserves (I := Receiver.Labelled)
      (fun _ event (_ : True) holds => Receiver.labelled_step rtc holds event)
      (Receiver.labelled_new recoveryTimeoutMs) fun _ _ => trivial
  have start : Awaits key startUs []
      ((receiverMachine rtc).final (.new recoveryTimeoutMs) (runEvents rtc before)) := by
    refine ⟨lost, labelled, fun id frame found => UInt32.le_of_lt (below id frame found), fun frame found => ?_, ?_⟩
    · exact absurd (below _ frame found) (UInt32.lt_irrefl _)
    · rintro ⟨packet, _, there⟩
      contradiction
  apply restores_run burst isKey positive (Receiver.final_recoveryTimeoutUs rtc _ _) within _ start
  · by_contra whole
    rw [Bool.not_eq_false] at whole
    obtain ⟨packet, _, there⟩ := started_of_whole stamped whole
    contradiction
  · apply List.all_eq_true.mpr
    intro packet inside
    simpa using whole packet inside
  · intro batch inside arrival media
    obtain ⟨frame, sent, own⟩ := delivers batch inside arrival media
    rcases List.mem_append.mp sent with there | here
    · obtain ⟨there, epoch⟩ := List.mem_filter.mp there
      exact admits_of_mem wire burst (front frame there) own
        (.inr ⟨of_decide_eq_true epoch, frameId_lt_of_split short split there⟩)
    · obtain rfl := List.mem_singleton.mp here
      exact admits_of_mem wire burst member own (.inl rfl)

/-- A keyframe and a delta frame, of which the receiver gets the second, and a keyframe of two packets. -/
def lostThenKey : List SenderCall :=
  [.setOutgoingFrame 1 true, .outgoing [some (Rtp.packet 1 true [1])], .setOutgoingFrame 1 false,
    .outgoing [some (Rtp.packet 2 true [2])], .setOutgoingFrame 1 true,
    .outgoing [some (Rtp.packet 3 false [3]), some (Rtp.packet 4 true [4])]]

private theorem stampable_lostThenKey : ∀ call ∈ lostThenKey, call.Stampable Rtc.rfc5761 := by
  intro call member
  simp only [lostThenKey, List.mem_cons, List.not_mem_nil, or_false] at member
  rcases member with rfl | rfl | rfl | rfl | rfl | rfl
  · trivial
  · exact stampable_packet 1 true 1
  · trivial
  · exact stampable_packet 2 true 2
  · trivial
  · refine ⟨List.length_filter_le _ _ |>.trans (by decide), fun message inside _ => ?_⟩
    simp only [List.mem_cons, Option.some.injEq, List.not_mem_nil, or_false] at inside
    rcases inside with rfl | rfl <;> exact bare_packet _ _ _

/-- A frame of the first epoch on the wire. -/
def onWire (frameId : UInt32) (keyframe : Bool) (bare : List Message) : SentFrame where
  epoch := 1
  frameId := frameId
  keyframe := keyframe
  packets := bare.mapIdx fun i packet => addFrameMetadata Rtc.rfc5761
    ⟨1, frameId, UInt16.ofNat i, UInt16.ofNat bare.length, keyframe⟩ packet

def lostKey : SentFrame := onWire 1 true [Rtp.packet 1 true [1]]
def arrivedDelta : SentFrame := onWire 2 false [Rtp.packet 2 true [2]]
def wholeKey : SentFrame := onWire 3 true [Rtp.packet 3 false [3], Rtp.packet 4 true [4]]

/-- A batch of packets that arrive at one time. -/
def batchAt (atUs : ℤ) (packets : List Message) : ReceiverCall :=
  .incoming ⟨packets.map fun packet => (atUs, some packet), atUs, atUs⟩

private theorem mem_batchAt {atUs : ℤ} {packets : List Message} {batch : Batch} {arrival : ℤ × Message}
    (same : ReceiverCall.incoming batch = batchAt atUs packets)
    (media : arrival ∈ mediaArrivals rtc batch.arrivals) : arrival.2 ∈ packets := by
  cases same
  obtain ⟨packet, inside, here⟩ := List.mem_map.mp (mem_mediaArrivals media)
  obtain ⟨_, same⟩ := Prod.mk.inj here
  exact Option.some.inj same ▸ inside

/-- The second packet of the keyframe comes first, in a batch with the delta frame that comes again. -/
theorem restored_by_keyframe_outOfOrder :
    let during := [batchAt 2000 (wholeKey.packets.drop 1 ++ arrivedDelta.packets), .poll 200000,
      batchAt 300000 (wholeKey.packets.take 1)]
    let after := (receiverCalls Rtc.rfc5761).final (.new 1000) [batchAt 1000 arrivedDelta.packets]
    after.stats.synchronized = false ∧
      ∃ delivery ∈ (receiverCalls Rtc.rfc5761).outputs after during, RestoresSync wholeKey delivery.output := by
  intro during after
  have lost : after.stats.synchronized = false := by decide +kernel
  refine ⟨lost, ?_⟩
  have split : sentFrames Rtc.rfc5761 {} lostThenKey = [lostKey, arrivedDelta] ++ wholeKey :: [] := by
    decide +kernel
  apply @restored_by_keyframe _ wholeKey 2000 Rtc.rfc5761_demultiplexes _ stampable_lostThenKey
    (by rw [split]; decide) _ [] split rfl (by decide +kernel) 1000 _ _ _ lost _ (by decide) _ (by decide +kernel)
  · intro batch member arrival media
    exact ⟨arrivedDelta, by simp, mem_batchAt (List.mem_singleton.mp member) media⟩
  · intro batch member arrival media
    simp only [during, List.mem_cons, List.not_mem_nil, or_false, reduceCtorEq, false_or] at member
    rcases member with first | second
    · rcases List.mem_append.mp (mem_batchAt first media) with own | again
      · exact ⟨wholeKey, by simp, List.mem_of_mem_drop own⟩
      · exact ⟨arrivedDelta, by simp [arrivedDelta, wholeKey, onWire], again⟩
    · exact ⟨wholeKey, by simp, List.mem_of_mem_take (mem_batchAt second media)⟩
  · intro call member
    simp only [during, List.mem_cons, List.not_mem_nil, or_false] at member
    rcases member with rfl | rfl | rfl
    · exact ⟨by decide +kernel, by decide⟩
    · trivial
    · exact ⟨by decide +kernel, by decide⟩

end WeakNetVideo
