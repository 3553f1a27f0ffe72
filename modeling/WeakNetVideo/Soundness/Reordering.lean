import WeakNetVideo.Proofs.BurstProgress

/-! # Reordering

A packet that overtakes the first packet of an earlier frame leaves a placeholder in that frame's
place. A placeholder has no slots and agrees with no packet, so it stays at the cursor until the
receiver gives up. Packets of a burst may otherwise arrive in any order: the burst comes out whole
exactly when none overtakes.
-/

namespace WeakNetVideo

variable {rtc : Rtc} {epoch : UInt16} {first : UInt32} {frames : List SentFrame} {startUs atUs : ℤ}
  {progress : Progress} {r : Receiver} {event : ReceiverEvent} {events : List ReceiverEvent}
  {message : Message}

/-! ## Placeholders stay -/

namespace Receiver

/-- A placeholder that has been seen takes the id. -/
def Blocked (r : Receiver) (id : UInt32) : Prop :=
  ∃ frame, r.frames[id]? = some frame ∧ frame.packetCount = 0 ∧ frame.firstSeenUs ≠ 0

variable {id : UInt32}

/-- No packet can be stored over a placeholder without losing the synchronization. -/
private theorem blocked_storePacket {metadata : FrameMetadata} (blocked : r.Blocked id)
    (count : metadata.packetCount ≠ 0)
    (still : (r.storePacket atUs metadata message).stats.synchronized = true) :
    (r.storePacket atUs metadata message).Blocked id := by
  obtain ⟨frame, found, none, seen⟩ := blocked
  obtain ⟨agrees, step⟩ := storePacket_synchronized still
  rw [step]
  by_cases here : metadata.frameId = id
  · subst here
    rw [assemblyFor_of_get found seen] at agrees
    exact absurd (agrees.1.symm.trans none) count
  · refine ⟨frame, ?_, none, seen⟩
    rw [OrderedMap.get_insert_of_ne here]
    exact found

private theorem blocked_packet (blocked : r.Blocked id)
    (still : (r.processReceiverPacket rtc atUs message).stats.synchronized = true) :
    (r.processReceiverPacket rtc atUs message).Blocked id := by
  obtain ⟨_, metadata, valid, same⟩ := processReceiverPacket_synchronized still
  obtain ⟨frame, found, none, seen⟩ := blocked
  have adopted : (r.adoptEpoch metadata).frames = r.frames := by
    rw [adoptEpoch_of_current same]
  rw [processReceiverPacket_of_valid valid] at still ⊢
  refine blocked_storePacket ⟨frame, ?_, none, seen⟩ (validMetadata_some valid).2.1 still
  apply get_withPlaceholders_of_some
  rw [adopted]
  exact found

/-- A placeholder stays as long as the receiver stays synchronized. -/
private theorem blocked_step (kept : r.stats.synchronized = true) (blocked : r.Blocked id)
    (still : (r.step rtc event).1.stats.synchronized = true) : (r.step rtc event).1.Blocked id := by
  cases event with
  | packet atUs message => exact blocked_packet blocked still
  | drain atUs =>
    obtain ⟨frame, found, none, seen⟩ := blocked
    have incomplete : frame.complete = false := by
      rw [FrameAssembly.complete, if_pos (.inl none)]
    exact ⟨frame, get_drain_of_incomplete r kept found incomplete still, none, seen⟩
  | poll atUs =>
    obtain ⟨frame, found, none, seen⟩ := blocked
    obtain ⟨after, nackUs, there, rfl⟩ := (poll_polled r atUs).symm.get found
    exact ⟨after, there, none, seen⟩
  | bindSend => exact blocked
  | recordPliSent => exact blocked
  | invalidateSync =>
    simp only [step, invalidateSync, markUnsynchronized_synchronized] at still
    contradiction

theorem blocked_run (blocked : r.Blocked id) (throughout : ∀ first rest, events = first ++ rest →
    ((receiverMachine rtc).final r first).stats.synchronized = true) :
    ((receiverMachine rtc).final r events).Blocked id := by
  induction events generalizing r with
  | nil => exact blocked
  | cons event events ih =>
    apply ih (blocked_step (throughout [] _ rfl) blocked (throughout [event] _ rfl))
    rintro first rest rfl
    exact throughout (event :: first) rest rfl

end Receiver

/-- A packet that overtakes leaves a placeholder. -/
private theorem blocked_of_overtakes (burst : Burst rtc epoch first frames) (positive : 0 < atUs)
    (tracks : Tracks epoch first frames startUs progress r)
    (overtakes : Overtakes first frames progress message)
    (still : (r.processReceiverPacket rtc atUs message).stats.synchronized = true) :
    ∃ id, (r.processReceiverPacket rtc atUs message).Blocked id := by
  obtain ⟨j, sent, found, packet, order, k, earlier, there, below, untouched⟩ := overtakes
  have member := List.mem_of_getElem? found
  obtain ⟨i, slot⟩ := List.mem_iff_getElem?.mp packet
  have kept : progress.released ≤ k := by
    by_contra passed
    have early : k < leading frames progress.arrived := by
      have released := tracks.released
      omega
    exact untouched
      (started_of_whole (burst.stamped _ (List.mem_of_getElem? there)) (whole_of_lt_leading early there))
  have bound := burst.index_lt found
  have same : r.receiverEpoch = some (sent.stamp i).epoch := by
    rw [tracks.epoch]
    exact congrArg some (burst.epoch sent member).symm
  have key : (sent.stamp i).frameId = first + UInt32.ofNat j := burst.ids j sent found
  obtain ⟨lower, upper⟩ := offset_between kept below (by omega) (UInt32.le_of_lt order)
  rw [Receiver.processReceiverPacket_of_valid (burst.validMetadata member slot),
    Receiver.adoptEpoch_of_same same (by rw [tracks.cursor]; rfl)] at still ⊢
  have keys : ∀ k : ℕ, k < frames.length →
      first + UInt32.ofNat k ∈ (List.range frames.length).map fun k => first + UInt32.ofNat k :=
    fun k inside => List.mem_map.mpr ⟨k, List.mem_range.mpr inside, rfl⟩
  have short := (List.getElem?_eq_some_iff.mp found).1
  obtain ⟨frame, present⟩ := @Receiver.exists_get_withPlaceholders r atUs (sent.stamp i) _ _
    ((List.range frames.length).map fun k => first + UInt32.ofNat k)
    (by rw [List.length_map, List.length_range]; exact burst.few) tracks.cursor
    (fun id frame buffered => by
      obtain ⟨k, _, inside, _, rfl, _⟩ := tracks.buffers.entries id frame buffered
      exact keys k (List.getElem?_eq_some_iff.mp inside).1)
    (fun id low high => by
      rw [key] at high
      obtain ⟨k, _, inside, rfl⟩ := exists_offset (by omega) (by omega) low high
      exact keys k (by omega))
    lower (key ▸ upper)
  rcases Receiver.get_withPlaceholders present with before | ⟨_, rfl, _⟩
  · exact absurd (tracks.buffers.entry burst there before).2.1 untouched
  · exact ⟨_, Receiver.blocked_storePacket ⟨_, present, rfl, Int.ne_of_gt positive⟩
      (Receiver.validMetadata_some (burst.validMetadata member slot)).2.1 still⟩

/-! ## Overtaking decides -/

/-- The burst comes out whole and in order, the receiver is synchronized at every cut of the run, and
nothing stays in the buffer. -/
structure Harmless (rtc : Rtc) (r : Receiver) (frames : List SentFrame) (calls : List ReceiverCall) :
    Prop where
  emitted : (emitted rtc r calls).map FrameAssembly.content = frames.map SentFrame.content
  synchronized : ∀ first rest, runEvents rtc calls = first ++ rest →
    ((receiverMachine rtc).final r first).stats.synchronized = true
  empty : ((receiverCalls rtc).final r calls).frames = ∅

/-- A run that stays synchronized and leaves no placeholder has nothing overtaking. -/
private theorem inOrder_of_synchronized (burst : Burst rtc epoch first frames) (positive : 0 < startUs)
    (tracks : Tracks epoch first frames startUs progress r)
    (scheduled : Scheduled frames startUs r.recoveryTimeoutUs progress.arrived events)
    (throughout : ∀ first rest, events = first ++ rest →
      ((receiverMachine rtc).final r first).stats.synchronized = true)
    (clear : ∀ id, ¬((receiverMachine rtc).final r events).Blocked id) (past : List (List SentFrame)) :
    (burstMachine frames).Everywhere (InOrder first frames) past progress events := by
  induction events generalizing progress r past with
  | nil => trivial
  | cons event events ih =>
    have after : ∀ first rest, events = first ++ rest →
        ((receiverMachine rtc).final (r.step rtc event).1 first).stats.synchronized = true := by
      rintro first rest rfl
      exact throughout (event :: first) rest rfl
    have inOrder : InOrder first frames past progress event := by
      rintro atUs message rfl overtakes
      have inTime := (scheduled.inTime _ (List.mem_cons_self ..)).1
      obtain ⟨id, blocked⟩ := blocked_of_overtakes burst (Int.lt_of_lt_of_le positive inTime) tracks
        overtakes (after [] _ rfl)
      exact clear id (Receiver.blocked_run (r := (r.step rtc _).1) blocked after)
    have later := scheduled.tail
    rw [← Receiver.step_recoveryTimeoutUs rtc r event] at later
    exact ⟨inOrder, ih (tracks_step burst positive tracks scheduled inOrder).1 later after clear _⟩

theorem tracks_start (synchronized : r.stats.synchronized = true) (current : r.receiverEpoch = some epoch)
    (cursor : r.nextOutputFrameId = some first) (empty : r.frames = ∅) (frames : List SentFrame)
    (startUs : ℤ) : Tracks epoch first frames startUs {} r := by
  refine ⟨synchronized, current, ?_, ?_, Nat.zero_le _⟩
  · rw [cursor]
    exact congrArg some (UInt32.add_zero first).symm
  · rw [empty]
    exact .empty first frames 0 startUs

/-- From any synchronized state with an empty buffer, a burst that is delivered in full within the
timeout, in any order and over any calls, comes out harmlessly exactly when no packet overtakes. -/
theorem harmless_iff (burst : Burst rtc epoch first frames)
    (synchronized : r.stats.synchronized = true) (current : r.receiverEpoch = some epoch)
    (cursor : r.nextOutputFrameId = some first) (empty : r.frames = ∅) (positive : 0 < startUs)
    {calls : List ReceiverCall}
    (scheduled : Scheduled frames startUs r.recoveryTimeoutUs [] (runEvents rtc calls)) :
    Harmless rtc r frames calls ↔
      (burstMachine frames).Everywhere (InOrder first frames) [] {} (runEvents rtc calls) := by
  have tracks := tracks_start synchronized current cursor empty frames startUs
  constructor
  · intro harmless
    refine inOrder_of_synchronized burst positive tracks scheduled harmless.synchronized ?_ []
    rintro id ⟨frame, found, _⟩
    rw [← final_calls, harmless.empty, Std.ExtTreeMap.getElem?_empty] at found
    contradiction
  · intro inOrder
    obtain ⟨last, content, throughout⟩ := tracks_run burst positive tracks scheduled inOrder
    have start : ({} : Progress).released = leading frames ({} : Progress).arrived :=
      (leading_nil burst).symm
    have released := released_of_scheduled start scheduled
    refine ⟨?_, throughout, ?_⟩
    · rw [emitted_eq, content, (handedOn_run tracks.released _).content, released, List.take_length]
      rfl
    · rw [final_calls]
      apply OrderedMap.eq_empty_of_get_none
      intro id
      cases found : ((receiverMachine rtc).final r (runEvents rtc calls)).frames[id]? with
      | none => rfl
      | some frame =>
        obtain ⟨j, sent, there, kept, _⟩ := last.buffers.entries id frame found
        have inside := (List.getElem?_eq_some_iff.mp there).1
        omega

/-! ## Two frames behind a keyframe -/

/-- A keyframe, a frame of two packets and a frame of one. -/
def threeFrames : List SenderCall :=
  [.setOutgoingFrame 1 true, .outgoing [some (Rtp.packet 1 true [1])],
    .setOutgoingFrame 1 false, .outgoing [some (Rtp.packet 2 false [2]), some (Rtp.packet 3 true [3])],
    .outgoing [some (Rtp.packet 4 true [4])]]

/-- The frames behind the keyframe, as they are sent. -/
def twoBehind : List SentFrame := ((sentFrames Rtc.rfc5761 {} threeFrames).drop 1).take 2

/-- The receiver that has handed the keyframe on. -/
def behindKeyframe : Receiver :=
  (receiverCalls Rtc.rfc5761).final (.new 1000)
    [deliverTogether 1000 ((sentFrames Rtc.rfc5761 {} threeFrames).take 1)]

theorem stampable_threeFrames : ∀ call ∈ threeFrames, call.Stampable Rtc.rfc5761 := by
  intro call member
  simp only [threeFrames, List.mem_cons, List.not_mem_nil, or_false] at member
  rcases member with rfl | rfl | rfl | rfl | rfl
  · trivial
  · exact stampable_packet 1 true 1
  · trivial
  · refine ⟨List.length_filter_le _ _ |>.trans (by decide), fun message inside _ => ?_⟩
    simp only [List.mem_cons, Option.some.injEq, List.not_mem_nil, or_false] at inside
    rcases inside with rfl | rfl
    · exact bare_packet 2 false 2
    · exact bare_packet 3 true 3
  · exact stampable_packet 4 true 4

theorem burst_twoBehind : Burst Rtc.rfc5761 1 2 twoBehind := by
  have burst := @burst_sentFrames Rtc.rfc5761 1 Rtc.rfc5761_demultiplexes {} _ stampable_threeFrames 1 2
    (by decide) (by decide +kernel) (by decide +kernel)
  exact burst

/-- The last frame first. -/
def lastFirst : List ReceiverCall :=
  [deliverTogether 2000 (twoBehind.drop 1), deliverTogether 3000 (twoBehind.take 1)]

/-- The packets of both frames in a mixed order in which none overtakes. -/
def mixed : List ReceiverCall :=
  let packets := twoBehind.flatMap SentFrame.packets
  [.incoming ⟨(packets.drop 1).map fun packet => (2000, some packet), 2000, 2000⟩,
    .incoming ⟨(packets.take 1).map fun packet => (3000, some packet), 3000, 3000⟩]

/-- When the last frame comes first, the receiver loses the synchronization and hands nothing on. -/
theorem lastFirst_not_harmless : Burst Rtc.rfc5761 1 2 twoBehind ∧
    behindKeyframe.stats.synchronized = true ∧ behindKeyframe.receiverEpoch = some 1 ∧
    behindKeyframe.nextOutputFrameId = some 2 ∧ behindKeyframe.frames = ∅ ∧
    Scheduled twoBehind 2000 behindKeyframe.recoveryTimeoutUs [] (runEvents Rtc.rfc5761 lastFirst) ∧
    (emitted Rtc.rfc5761 behindKeyframe lastFirst).length = 0 ∧
    ((receiverCalls Rtc.rfc5761).final behindKeyframe lastFirst).stats.synchronized = false ∧
    ¬Harmless Rtc.rfc5761 behindKeyframe twoBehind lastFirst := by
  have lost : ((receiverCalls Rtc.rfc5761).final behindKeyframe lastFirst).stats.synchronized = false := by
    decide +kernel
  refine ⟨burst_twoBehind, by decide +kernel, by decide +kernel, by decide +kernel, ?_,
    ⟨by decide +kernel, by decide +kernel, by decide +kernel, by decide +kernel⟩, by decide +kernel, lost,
    fun harmless => ?_⟩
  · rw [Std.ExtTreeMap.eq_empty_iff_size_eq_zero]
    decide +kernel
  · have kept := harmless.synchronized _ [] (List.append_nil _).symm
    rw [← final_calls, lost] at kept
    contradiction

/-- In the mixed order both frames come out. -/
theorem harmless_iff_mixed :
    (emitted Rtc.rfc5761 behindKeyframe mixed).map FrameAssembly.frameId = [2, 3] ∧
      (Harmless Rtc.rfc5761 behindKeyframe twoBehind mixed ↔
        (burstMachine twoBehind).Everywhere (InOrder 2 twoBehind) [] {}
          (runEvents Rtc.rfc5761 mixed)) := by
  refine ⟨by decide +kernel, ?_⟩
  refine @harmless_iff Rtc.rfc5761 1 2 twoBehind 2000 behindKeyframe burst_twoBehind (by decide +kernel)
    (by decide +kernel) (by decide +kernel) ?_ (by decide) mixed
    ⟨by decide +kernel, by decide +kernel, by decide +kernel, by decide +kernel⟩
  rw [Std.ExtTreeMap.eq_empty_iff_size_eq_zero]
  decide +kernel

end WeakNetVideo
