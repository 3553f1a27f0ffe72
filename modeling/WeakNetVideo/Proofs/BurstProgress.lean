import WeakNetVideo.Proofs.Burst

/-! # The progress of a burst

What a receiver does with a burst depends only on which packets have arrived by which drain. Its
progress is a machine of its own: a packet arrives, or a drain hands on the leading frames that have
arrived whole. A synchronized receiver follows that machine as long as no packet overtakes the first
packet of an earlier frame.
-/

namespace WeakNetVideo

/-- What has arrived, and how many frames have been handed on. -/
structure Progress where
  arrived : List Message := []
  released : ℕ := 0

/-- The number of leading frames that have arrived whole. -/
def leading : List SentFrame → List Message → ℕ
  | [], _ => 0
  | sent :: rest, arrived => if sent.whole arrived then leading rest arrived + 1 else 0

def Progress.step (frames : List SentFrame) (progress : Progress) :
    ReceiverEvent → Progress × List SentFrame
  | .packet _ message => ({ progress with arrived := message :: progress.arrived }, [])
  | .drain _ => ({ progress with released := leading frames progress.arrived },
      (frames.take (leading frames progress.arrived)).drop progress.released)
  | _ => (progress, [])

/-- The machine of a burst's progress. -/
def burstMachine (frames : List SentFrame) : Transducer Progress ReceiverEvent (List SentFrame) :=
  ⟨Progress.step frames⟩

/-- A packet overtakes when an earlier frame has not started, unless its id has wrapped around and
the cursor has not. -/
def Overtakes (first : UInt32) (frames : List SentFrame) (progress : Progress) (message : Message) :
    Prop :=
  ∃ (j : ℕ) (sent : SentFrame), frames[j]? = some sent ∧ message ∈ sent.packets ∧
    first + UInt32.ofNat progress.released < first + UInt32.ofNat j ∧
    ∃ (k : ℕ) (earlier : SentFrame), frames[k]? = some earlier ∧ k < j ∧
      ¬earlier.Started progress.arrived

/-- The event is not a packet that overtakes. -/
def InOrder (first : UInt32) (frames : List SentFrame) (_ : List (List SentFrame)) (progress : Progress)
    (event : ReceiverEvent) : Prop :=
  ∀ atUs message, event = .packet atUs message → ¬Overtakes first frames progress message

/-- The packet of an event. -/
def packetOf : ReceiverEvent → Option Message
  | .packet _ message => some message
  | _ => none

/-- The packets that a run of events processes. -/
def processed (events : List ReceiverEvent) : List Message := events.filterMap packetOf

/-- The reading of the clock at an event. -/
def readingOf : ReceiverEvent → Option ℤ
  | .packet atUs _ => some atUs
  | .drain atUs => some atUs
  | .poll atUs => some atUs
  | _ => none

/-- The reading of the clock at a packet lies in a window. -/
def InWindow (startUs timeoutUs : ℤ) : ReceiverEvent → Prop
  | .packet atUs _ => startUs ≤ atUs ∧ atUs < startUs + timeoutUs
  | _ => True

instance (startUs timeoutUs : ℤ) : DecidablePred (InWindow startUs timeoutUs)
  | .packet atUs _ => inferInstanceAs (Decidable (startUs ≤ atUs ∧ atUs < startUs + timeoutUs))
  | .drain _ => .isTrue trivial
  | .poll _ => .isTrue trivial
  | .bindSend => .isTrue trivial
  | .invalidateSync => .isTrue trivial
  | .recordPliSent => .isTrue trivial

/-- Events that bring the rest of the burst, every packet once, within one window of a clock that never
goes back. -/
structure Scheduled (frames : List SentFrame) (startUs timeoutUs : ℤ) (arrived : List Message)
    (events : List ReceiverEvent) : Prop where
  quiet : .invalidateSync ∉ events
  delivered : (arrived ++ processed events).Perm (frames.flatMap SentFrame.packets)
  inTime : ∀ event ∈ events, InWindow startUs timeoutUs event
  forward : (events.filterMap readingOf).Pairwise (· ≤ ·)

variable {rtc : Rtc} {epoch : UInt16} {first : UInt32} {frames : List SentFrame} {startUs : ℤ}
  {arrived : List Message} {progress : Progress} {r : Receiver} {event : ReceiverEvent}
  {events : List ReceiverEvent}

/-! ## Leading frames -/

theorem leading_le (frames : List SentFrame) (arrived : List Message) :
    leading frames arrived ≤ frames.length := by
  induction frames with
  | nil => exact Nat.le_refl 0
  | cons sent rest ih =>
    simp only [leading, List.length_cons]
    split_ifs <;> omega

theorem whole_of_lt_leading {j : ℕ} {sent : SentFrame} (below : j < leading frames arrived)
    (found : frames[j]? = some sent) : sent.whole arrived = true := by
  induction frames generalizing j with
  | nil => contradiction
  | cons head rest ih =>
    simp only [leading] at below
    split_ifs at below with whole
    · cases j with
      | zero =>
        obtain rfl := Option.some.inj found
        exact whole
      | succ j => exact ih (Nat.lt_of_succ_lt_succ below) found
    · contradiction

theorem not_whole_leading {sent : SentFrame}
    (found : frames[leading frames arrived]? = some sent) : sent.whole arrived = false := by
  induction frames with
  | nil => contradiction
  | cons head rest ih =>
    simp only [leading] at found
    split_ifs at found with whole
    · exact ih found
    · obtain rfl := Option.some.inj found
      exact Bool.eq_false_iff.mpr whole

theorem leading_of_whole (whole : ∀ sent ∈ frames, sent.whole arrived = true) :
    leading frames arrived = frames.length := by
  induction frames with
  | nil => rfl
  | cons head rest ih =>
    rw [leading, if_pos (whole head (List.mem_cons_self ..)),
      ih fun sent member => whole sent (List.mem_cons_of_mem _ member), List.length_cons]

/-- No frame is whole before anything has arrived. -/
theorem leading_nil (burst : Burst rtc epoch first frames) : leading frames [] = 0 := by
  cases frames with
  | nil => rfl
  | cons head rest =>
    obtain ⟨packet, _, split⟩ :=
      List.exists_cons_of_ne_nil (burst.stamped head (List.mem_cons_self ..)).nonempty
    rw [leading, if_neg]
    intro whole
    have arrived := List.all_eq_true.mp whole packet (split ▸ List.mem_cons_self ..)
    simp at arrived

theorem started_of_whole {sent : SentFrame} (stamped : sent.Stamped rtc)
    (whole : sent.whole arrived = true) : sent.Started arrived := by
  obtain ⟨packet, rest, split⟩ := List.exists_cons_of_ne_nil stamped.nonempty
  have own : packet ∈ sent.packets := split ▸ List.mem_cons_self ..
  exact ⟨packet, own, of_decide_eq_true (List.all_eq_true.mp whole packet own)⟩

theorem whole_cons {sent : SentFrame} {message : Message} (whole : sent.whole arrived = true) :
    sent.whole (message :: arrived) = true := by
  apply List.all_eq_true.mpr
  intro packet member
  apply decide_eq_true
  exact List.mem_cons_of_mem _ (of_decide_eq_true (List.all_eq_true.mp whole packet member))

theorem leading_mono (frames : List SentFrame) (arrived : List Message) (message : Message) :
    leading frames arrived ≤ leading frames (message :: arrived) := by
  induction frames with
  | nil => exact Nat.le_refl 0
  | cons head rest ih =>
    simp only [leading]
    split_ifs with before after
    · omega
    · exact absurd (whole_cons before) after
    · omega
    · omega

/-! ## Schedules -/

theorem processed_append (first second : List ReceiverEvent) :
    processed (first ++ second) = processed first ++ processed second :=
  List.filterMap_append

theorem mem_processed_cons {message : Message} (later : message ∈ processed events) :
    message ∈ processed (event :: events) := by
  obtain ⟨other, inside, same⟩ := List.mem_filterMap.mp later
  exact List.mem_filterMap.mpr ⟨other, List.mem_cons_of_mem _ inside, same⟩

theorem Scheduled.tail {timeoutUs : ℤ}
    (scheduled : Scheduled frames startUs timeoutUs progress.arrived (event :: events)) :
    Scheduled frames startUs timeoutUs (progress.step frames event).1.arrived events := by
  have delivered := scheduled.delivered
  have forward := scheduled.forward
  refine ⟨fun member => scheduled.quiet (List.mem_cons_of_mem _ member), ?_, fun other member =>
    scheduled.inTime other (List.mem_cons_of_mem _ member), ?_⟩
  · cases event with
    | packet atUs message => exact List.perm_middle.symm.trans delivered
    | drain atUs => exact delivered
    | poll atUs => exact delivered
    | bindSend => exact delivered
    | recordPliSent => exact delivered
    | invalidateSync => exact delivered
  · rw [List.filterMap_cons] at forward
    split at forward
    · exact forward
    · exact (List.pairwise_cons.mp forward).2

/-- The schedule of what is still to come behind some events. -/
theorem Scheduled.behind {timeoutUs : ℤ} {more : List ReceiverEvent}
    (scheduled : Scheduled frames startUs timeoutUs progress.arrived (events ++ more)) :
    Scheduled frames startUs timeoutUs ((burstMachine frames).final progress events).arrived more := by
  induction events generalizing progress with
  | nil => exact scheduled
  | cons event events ih => exact ih scheduled.tail

/-- Events that bring no packet may be left out at the end. -/
theorem Scheduled.before {timeoutUs : ℤ} {more : List ReceiverEvent} (silent : processed more = [])
    (scheduled : Scheduled frames startUs timeoutUs arrived (events ++ more)) :
    Scheduled frames startUs timeoutUs arrived events := by
  have delivered := scheduled.delivered
  have forward := scheduled.forward
  rw [processed_append, silent, List.append_nil] at delivered
  rw [List.filterMap_append] at forward
  exact ⟨fun member => scheduled.quiet (List.mem_append_left _ member), delivered,
    fun event member => scheduled.inTime event (List.mem_append_left _ member),
    (List.pairwise_append.mp forward).1⟩

/-- A scheduled packet has a place in the burst and has not arrived yet. -/
theorem Scheduled.place (burst : Burst rtc epoch first frames) {timeoutUs atUs : ℤ} {message : Message}
    (scheduled : Scheduled frames startUs timeoutUs arrived (.packet atUs message :: events)) :
    ∃ (j i : ℕ) (sent : SentFrame), frames[j]? = some sent ∧ sent.packets[i]? = some message ∧
      message ∉ arrived := by
  have there : message ∈ processed (.packet atUs message :: events) := List.mem_cons_self ..
  have inside := scheduled.delivered.mem_iff.mp (List.mem_append_right arrived there)
  obtain ⟨sent, member, packet⟩ := List.mem_flatMap.mp inside
  obtain ⟨j, found⟩ := List.mem_iff_getElem?.mp member
  obtain ⟨i, slot⟩ := List.mem_iff_getElem?.mp packet
  refine ⟨j, i, sent, found, slot, fun before => ?_⟩
  have once := scheduled.delivered.nodup_iff.mpr burst.nodup
  exact (List.nodup_append.mp once).2.2 message before message there rfl

/-- While a packet is still to come, a drain is in time. -/
theorem Scheduled.drain_inTime {timeoutUs atUs : ℤ}
    (scheduled : Scheduled frames startUs timeoutUs arrived (.drain atUs :: events))
    (short : leading frames arrived < frames.length) : atUs < startUs + timeoutUs := by
  have found := List.getElem?_eq_getElem short
  have open_ := not_whole_leading found
  simp only [SentFrame.whole, List.all_eq_false, decide_eq_true_eq] at open_
  obtain ⟨packet, member, missing⟩ := open_
  have inside := scheduled.delivered.mem_iff.mpr
    (List.mem_flatMap.mpr ⟨_, List.mem_of_getElem? found, member⟩)
  rcases List.mem_append.mp inside with before | later
  · exact absurd before missing
  · have ahead : packet ∈ processed events := later
    obtain ⟨event, there, same⟩ := List.mem_filterMap.mp ahead
    cases event with
    | packet packetUs message =>
      have order := (List.pairwise_cons.mp scheduled.forward).1 packetUs
        (List.mem_filterMap.mpr ⟨.packet packetUs message, there, rfl⟩)
      exact Int.lt_of_le_of_lt order
        (scheduled.inTime (.packet packetUs message) (List.mem_cons_of_mem _ there)).2
    | drain _ => contradiction
    | poll _ => contradiction
    | bindSend => contradiction
    | recordPliSent => contradiction
    | invalidateSync => contradiction

/-! ## A synchronized receiver follows the progress -/

/-- The receiver is synchronized, stands behind the frames handed on and collects the others. -/
structure Tracks (epoch : UInt16) (first : UInt32) (frames : List SentFrame) (startUs : ℤ)
    (progress : Progress) (r : Receiver) : Prop where
  synchronized : r.stats.synchronized = true
  epoch : r.receiverEpoch = some epoch
  cursor : r.nextOutputFrameId = some (first + UInt32.ofNat progress.released)
  buffers : Buffers first frames progress.released progress.arrived startUs r.frames
  released : progress.released ≤ leading frames progress.arrived

/-- Id and packets, as they are handed on and as they were sent. -/
def FrameAssembly.content (frame : FrameAssembly) : UInt32 × List MessagePtr :=
  (frame.frameId, frame.packets)

def SentFrame.content (sent : SentFrame) : UInt32 × List MessagePtr :=
  (sent.frameId, sent.packets.map some)

private theorem tracks_packet (burst : Burst rtc epoch first frames) (positive : 0 < startUs)
    (tracks : Tracks epoch first frames startUs progress r) {atUs : ℤ} {j i : ℕ} {sent : SentFrame}
    {message : Message} (found : frames[j]? = some sent) (slot : sent.packets[i]? = some message)
    (fresh : message ∉ progress.arrived) (inTime : startUs ≤ atUs)
    (inOrder : ¬Overtakes first frames progress message) :
    Tracks epoch first frames startUs { progress with arrived := message :: progress.arrived }
      (r.processReceiverPacket rtc atUs message) := by
  have member := List.mem_of_getElem? found
  have kept : progress.released ≤ j := by
    by_contra below
    have early : j < leading frames progress.arrived := by
      have released := tracks.released
      omega
    have whole := whole_of_lt_leading early found
    exact fresh (of_decide_eq_true
      (List.all_eq_true.mp whole message (List.mem_of_getElem? slot)))
  have same : r.receiverEpoch = some (sent.stamp i).epoch := by
    rw [tracks.epoch]
    exact congrArg some (burst.epoch sent member).symm
  rw [Receiver.processReceiverPacket_of_valid (burst.validMetadata member slot),
    Receiver.adoptEpoch_of_same same (by rw [tracks.cursor]; rfl),
    withPlaceholders_burst burst tracks.buffers tracks.cursor found kept fun order k earlier there below => by
      by_contra untouched
      exact inOrder ⟨j, sent, found, List.mem_of_getElem? slot, order, k, earlier, there, below, untouched⟩]
  obtain ⟨buffer, step, buffers⟩ :=
    storePacket_burst burst positive tracks.buffers found slot fresh kept inTime
  rw [step]
  exact ⟨tracks.synchronized, tracks.epoch, tracks.cursor, buffers,
    Nat.le_trans tracks.released (leading_mono _ _ _)⟩

/-- Behind the last frame handed on, a drain goes no further. -/
private theorem drain_settled (burst : Burst rtc epoch first frames)
    (tracks : Tracks epoch first frames startUs progress r) {atUs : ℤ}
    (settled : progress.released = leading frames progress.arrived)
    (inTime : leading frames progress.arrived < frames.length → atUs < startUs + r.recoveryTimeoutUs) :
    r.drainCompleteFrames atUs = (r, {}) := by
  cases found : r.frames[first + UInt32.ofNat progress.released]? with
  | none =>
    apply Receiver.drain_absent tracks.synchronized
    intro next cursor
    obtain rfl := Option.some.inj (tracks.cursor.symm.trans cursor)
    exact found
  | some frame =>
    obtain ⟨j, sent, there, kept, same, _, collects, seen⟩ := tracks.buffers.entries _ frame found
    have bound := burst.index_lt there
    have below : progress.released < 64 := by omega
    obtain rfl := eq_of_offset (by omega) (by omega) same
    have inside := (List.getElem?_eq_some_iff.mp there).1
    have incomplete : frame.complete = false := by
      rw [collects.complete_iff (burst.stamped sent (List.mem_of_getElem? there))]
      rw [settled] at there
      exact not_whole_leading there
    rw [Receiver.drain_incomplete tracks.synchronized tracks.cursor found incomplete, if_neg]
    have early := inTime (by omega)
    omega

/-- A drain hands on the leading frames that have arrived whole. -/
private theorem tracks_drain (burst : Burst rtc epoch first frames)
    (tracks : Tracks epoch first frames startUs progress r) {atUs : ℤ}
    (inTime : leading frames progress.arrived < frames.length → atUs < startUs + r.recoveryTimeoutUs) :
    Tracks epoch first frames startUs { progress with released := leading frames progress.arrived }
        (r.drainCompleteFrames atUs).1 ∧
      (r.drainCompleteFrames atUs).2.frames.map FrameAssembly.content =
        ((frames.take (leading frames progress.arrived)).drop progress.released).map
          SentFrame.content := by
  obtain ⟨ahead, distance⟩ := Nat.le.dest tracks.released
  induction ahead generalizing progress r with
  | zero =>
    have settled : progress.released = leading frames progress.arrived := distance
    rw [drain_settled burst tracks settled inTime, ← settled]
    refine ⟨tracks, ?_⟩
    rw [List.drop_eq_nil_of_le (List.length_take_le _ _)]
    rfl
  | succ ahead ih =>
    have below : progress.released < leading frames progress.arrived := by omega
    have inside := Nat.lt_of_lt_of_le below (leading_le frames progress.arrived)
    have found := List.getElem?_eq_getElem inside
    generalize frames[progress.released] = sent at found
    have member := List.mem_of_getElem? found
    have stamped := burst.stamped sent member
    have whole := whole_of_lt_leading below found
    obtain ⟨frame, there⟩ :=
      tracks.buffers.started _ sent found (Nat.le_refl _) (started_of_whole stamped whole)
    obtain ⟨_, _, collects, _⟩ := tracks.buffers.entry burst found there
    obtain ⟨rest, rest_eq, step⟩ := Receiver.drain_complete atUs tracks.synchronized tracks.cursor there
      (by rw [collects.complete_iff stamped, whole])
    have bound := burst.index_lt found
    have next : Tracks epoch first frames startUs
        { progress with released := progress.released + 1 } rest := by
      rw [rest_eq]
      refine ⟨tracks.synchronized, tracks.epoch, ?_, tracks.buffers.erase burst (by omega), below⟩
      simp only [UInt32.ofNat_add, Option.some.injEq, UInt32.add_assoc]
      rfl
    have remaining : progress.released + 1 + ahead = leading frames progress.arrived := by omega
    obtain ⟨last, content⟩ := ih next (by rw [rest_eq]; exact inTime) remaining
    change _ = ((frames.take (leading frames progress.arrived)).drop (progress.released + 1)).map _
      at content
    have taken : progress.released < (frames.take (leading frames progress.arrived)).length := by
      rw [List.length_take]
      omega
    rw [step]
    refine ⟨last, ?_⟩
    rw [List.map_cons, content, List.drop_eq_getElem_cons taken, List.map_cons, List.getElem_take]
    have same : frame.content = sent.content := by
      rw [FrameAssembly.content, SentFrame.content, collects.frameId, collects.packets,
        slots_of_whole whole]
    obtain ⟨_, here⟩ := List.getElem?_eq_some_iff.mp found
    rw [same, here]

/-- One event: the receiver and the progress stay together and hand on the same frames. -/
theorem tracks_step (burst : Burst rtc epoch first frames) (positive : 0 < startUs)
    (tracks : Tracks epoch first frames startUs progress r)
    (scheduled : Scheduled frames startUs r.recoveryTimeoutUs progress.arrived (event :: events))
    (inOrder : ∀ atUs message, event = .packet atUs message → ¬Overtakes first frames progress message) :
    Tracks epoch first frames startUs (progress.step frames event).1 (r.step rtc event).1 ∧
      (r.step rtc event).2.frames.map FrameAssembly.content =
        (progress.step frames event).2.map SentFrame.content := by
  cases event with
  | packet atUs message =>
    obtain ⟨j, i, sent, found, slot, fresh⟩ := scheduled.place burst
    have inTime := (scheduled.inTime _ (List.mem_cons_self ..)).1
    exact ⟨tracks_packet burst positive tracks found slot fresh inTime (inOrder atUs message rfl), rfl⟩
  | drain atUs => exact tracks_drain burst tracks scheduled.drain_inTime
  | poll atUs =>
    have polled := Receiver.poll_polled r atUs
    refine ⟨⟨polled.synchronized.trans tracks.synchronized, polled.epoch.trans tracks.epoch,
      polled.cursor.trans tracks.cursor, tracks.buffers.polled polled, tracks.released⟩, ?_⟩
    simp only [Receiver.step]
    rw [Receiver.poll_frames]
    rfl
  | bindSend =>
    exact ⟨⟨tracks.synchronized, tracks.epoch, tracks.cursor, tracks.buffers, tracks.released⟩, rfl⟩
  | recordPliSent =>
    exact ⟨⟨tracks.synchronized, tracks.epoch, tracks.cursor, tracks.buffers, tracks.released⟩, rfl⟩
  | invalidateSync => exact absurd (List.mem_cons_self ..) scheduled.quiet

/-! ## Whole runs -/

/-- Along a run without overtaking the receiver stays synchronized and hands on what the progress
does. -/
theorem tracks_run (burst : Burst rtc epoch first frames) (positive : 0 < startUs)
    (tracks : Tracks epoch first frames startUs progress r)
    (scheduled : Scheduled frames startUs r.recoveryTimeoutUs progress.arrived events)
    {past : List (List SentFrame)}
    (inOrder : (burstMachine frames).Everywhere (InOrder first frames) past progress events) :
    Tracks epoch first frames startUs ((burstMachine frames).final progress events)
        ((receiverMachine rtc).final r events) ∧
      (((receiverMachine rtc).outputs r events).flatMap Output.frames).map FrameAssembly.content =
        ((burstMachine frames).outputs progress events).flatten.map SentFrame.content ∧
      ∀ first rest, events = first ++ rest →
        ((receiverMachine rtc).final r first).stats.synchronized = true := by
  induction events generalizing progress r past with
  | nil =>
    refine ⟨tracks, rfl, fun first rest split => ?_⟩
    obtain ⟨rfl, rfl⟩ := List.append_eq_nil_iff.mp split.symm
    exact tracks.synchronized
  | cons event events ih =>
    obtain ⟨next, content⟩ := tracks_step burst positive tracks scheduled inOrder.1
    have later := scheduled.tail
    rw [← Receiver.step_recoveryTimeoutUs rtc r event] at later
    obtain ⟨last, contents, throughout⟩ := ih next later inOrder.2
    refine ⟨last, ?_, fun first rest split => ?_⟩
    · simp only [Transducer.outputs_cons, List.flatMap_cons, List.map_append, receiverMachine_step,
        List.flatten_cons, content, contents]
      rfl
    · cases first with
      | nil => exact tracks.synchronized
      | cons head first =>
        obtain ⟨rfl, remaining⟩ := List.cons.inj split
        exact throughout first rest remaining

theorem arrived_final (frames : List SentFrame) (progress : Progress) (events : List ReceiverEvent) :
    ((burstMachine frames).final progress events).arrived =
      (processed events).reverse ++ progress.arrived := by
  induction events generalizing progress with
  | nil => rfl
  | cons event events ih =>
    rw [Transducer.final_cons, ih]
    cases event with
    | packet atUs message =>
      change _ = (message :: processed events).reverse ++ progress.arrived
      rw [List.reverse_cons, List.append_assoc]
      rfl
    | drain atUs => rfl
    | poll atUs => rfl
    | bindSend => rfl
    | recordPliSent => rfl
    | invalidateSync => rfl

/-- What has been handed on lies between the number of frames handed on at the start and now. -/
structure HandedOn (frames : List SentFrame) (start : ℕ) (past : List (List SentFrame))
    (progress : Progress) : Prop where
  content : past.flatten = (frames.take progress.released).drop start
  order : start ≤ progress.released
  released : progress.released ≤ leading frames progress.arrived

theorem drop_take_append {α : Type*} (l : List α) {low mid high : ℕ} (lower : low ≤ mid)
    (upper : mid ≤ high) : (l.take mid).drop low ++ (l.take high).drop mid = (l.take high).drop low := by
  have cut : l.take mid = (l.take high).take mid := by rw [List.take_take, Nat.min_eq_left upper]
  rw [cut]
  generalize l.take high = whole
  have shift : whole.drop mid = (whole.drop low).drop (mid - low) := by
    rw [List.drop_drop, Nat.add_sub_cancel' lower]
  rw [List.drop_take, shift, List.take_append_drop]

private theorem handedOn_step {start : ℕ} {past : List (List SentFrame)}
    (handed : HandedOn frames start past progress) (event : ReceiverEvent) :
    HandedOn frames start (past ++ [((burstMachine frames).step progress event).2])
      ((burstMachine frames).step progress event).1 := by
  have same : (past ++ [[]]).flatten = past.flatten := by simp
  cases event with
  | packet atUs message =>
    exact ⟨same.trans handed.content, handed.order,
      Nat.le_trans handed.released (leading_mono _ _ _)⟩
  | drain atUs =>
    refine ⟨?_, Nat.le_trans handed.order handed.released, Nat.le_refl _⟩
    rw [List.flatten_append, List.flatten_singleton, handed.content]
    exact drop_take_append frames handed.order handed.released
  | poll atUs => exact ⟨same.trans handed.content, handed.order, handed.released⟩
  | bindSend => exact ⟨same.trans handed.content, handed.order, handed.released⟩
  | recordPliSent => exact ⟨same.trans handed.content, handed.order, handed.released⟩
  | invalidateSync => exact ⟨same.trans handed.content, handed.order, handed.released⟩

/-- A run of the progress hands on the frames from where it starts to where it ends. -/
theorem handedOn_run (bounded : progress.released ≤ leading frames progress.arrived)
    (events : List ReceiverEvent) : HandedOn frames progress.released
      ((burstMachine frames).outputs progress events) ((burstMachine frames).final progress events) := by
  have start : HandedOn frames progress.released [] progress := by
    refine ⟨?_, Nat.le_refl _, bounded⟩
    rw [List.drop_eq_nil_of_le (List.length_take_le _ _)]
    rfl
  exact (burstMachine frames).invariant (I := HandedOn frames progress.released)
    (P := fun _ _ _ => True) (fun _ _ event holds _ => handedOn_step holds event) start
    ((burstMachine frames).everywhere_of_forall fun _ _ => trivial)

/-- Every call leaves the leading frames handed on. -/
theorem settled_runEvents (rtc : Rtc) (settled : progress.released = leading frames progress.arrived)
    (calls : List ReceiverCall) :
    ((burstMachine frames).final progress (runEvents rtc calls)).released =
      leading frames ((burstMachine frames).final progress (runEvents rtc calls)).arrived := by
  induction calls generalizing progress with
  | nil => exact settled
  | cons call calls ih =>
    rw [runEvents, List.flatMap_cons, Transducer.final_append]
    apply ih
    cases call with
    | incoming batch =>
      rw [ReceiverCall.events, Transducer.final_cons, Transducer.final_append]
      rfl
    | poll atUs => exact settled
    | invalidateSync => exact settled
    | recordPliSent => exact settled

/-- The end of a burst: everything has arrived, so everything has been handed on. -/
theorem released_of_scheduled {calls : List ReceiverCall} {timeoutUs : ℤ}
    (settled : progress.released = leading frames progress.arrived)
    (scheduled : Scheduled frames startUs timeoutUs progress.arrived (runEvents rtc calls)) :
    ((burstMachine frames).final progress (runEvents rtc calls)).released = frames.length := by
  rw [settled_runEvents rtc settled calls, arrived_final]
  apply leading_of_whole
  intro sent member
  apply List.all_eq_true.mpr
  intro packet inside
  have delivered := scheduled.delivered.mem_iff.mpr (List.mem_flatMap.mpr ⟨sent, member, inside⟩)
  simpa [or_comm] using delivered

end WeakNetVideo
