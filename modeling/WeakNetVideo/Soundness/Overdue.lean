import WeakNetVideo.Proofs.ReceiverEvents
import WeakNetVideo.Proofs.ReceiverInvariants
import WeakNetVideo.Soundness.Handshake

/-! # Frames that become overdue

A drain gives up the frame at the cursor when it is overdue, a poll never does. A frame that becomes overdue
after the last packet stays at the cursor of a receiver that calls itself synchronized, and the recovery loop
asks for nothing. An entry is as old as a packet of its frame or of a later one, so nothing is overdue while the
cursor has passed all that came a timeout ago.
-/

namespace WeakNetVideo

variable {rtc : Rtc} {r s : Receiver} {recoveryTimeoutMs atUs : ℤ} {turns : List ReceiverTurn}

/-- The frame at the cursor is buffered, incomplete and overdue. -/
def Receiver.Overdue (r : Receiver) (atUs : ℤ) : Prop :=
  ∃ next frame, r.nextOutputFrameId = some next ∧ r.frames[next]? = some frame ∧ frame.complete = false ∧
    r.recoveryTimeoutUs ≤ atUs - frame.firstSeenUs

instance (r : Receiver) (atUs : ℤ) : Decidable (r.Overdue atUs) :=
  decidable_of_iff (∃ next ∈ r.nextOutputFrameId, ∃ frame ∈ r.frames[next]?,
      frame.complete = false ∧ r.recoveryTimeoutUs ≤ atUs - frame.firstSeenUs) <| by
    simp only [Receiver.Overdue, Option.mem_def]
    exact ⟨fun ⟨next, cursor, frame, rest⟩ => ⟨next, frame, cursor, rest⟩,
      fun ⟨next, frame, cursor, rest⟩ => ⟨next, cursor, frame, rest⟩⟩

/-- The receiver after some turns of its threads. -/
def stateAfter (rtc : Rtc) (recoveryTimeoutMs : ℤ) (turns : List ReceiverTurn) : Receiver :=
  (receiverMachine rtc).final (.new recoveryTimeoutMs) (turnEvents rtc turns)

/-- Behind every poll of a run, a receiver that is synchronized has no overdue frame at its cursor. -/
def NoticesOverdue (rtc : Rtc) (recoveryTimeoutMs : ℤ) (turns : List ReceiverTurn) : Prop :=
  ∀ before atUs after, turns = before ++ .poll atUs :: after →
    let polled := stateAfter rtc recoveryTimeoutMs (before ++ [.poll atUs])
    polled.stats.synchronized = true → ¬polled.Overdue atUs

/-- Whenever the recovery loop polls and there is an overdue frame at the cursor, it asks for a keyframe: the
track is open and the last request a quarter of a second ago. -/
def RequestsForOverdue (rtc : Rtc) (pli : Message) (recoveryTimeoutMs : ℤ) (turns : List ReceiverTurn) : Prop :=
  ∀ before atUs after, turns = before ++ .poll atUs :: after →
    ∀ (s : Protocol) (testUs : ℤ), s.receiver = stateAfter rtc recoveryTimeoutMs before → s.request = none →
      250000 ≤ testUs - s.lastPliUs →
        let polled := (s.step rtc pli (.receiver (.poll atUs))).1
        polled.receiver.Overdue atUs → (polled.test testUs true).request = some testUs

/-! ## What the packets tell -/

/-- What a valid packet is stamped with, and when it came. -/
def stampedArrival (rtc : Rtc) (arrival : ℤ × Message) : Option (ℤ × FrameMetadata) :=
  (Receiver.validMetadata rtc arrival.2).map fun metadata => (arrival.1, metadata)

/-- The packets that have come, when the last batch was drained, and whether that drain was in order. -/
structure Watch where
  arrivals : List (ℤ × FrameMetadata) := []
  drainUs : ℤ := 0
  inOrder : Bool := false

/-- The receiver when a batch has come and is to be drained. -/
def Receiver.atDrain (rtc : Rtc) (r : Receiver) (arrivals : List (ℤ × MessagePtr)) : Receiver :=
  (receiverMachine rtc).final { r with receiverSend := true } (packetEvents (mediaArrivals rtc arrivals))

/-- A batch is noted with its packets and its drain. -/
def Watch.next (rtc : Rtc) (watch : Watch) (r : Receiver) : ReceiverTurn → Watch
  | .batch arrivals drainUs =>
    ⟨watch.arrivals ++ (mediaArrivals rtc arrivals).filterMap (stampedArrival rtc), drainUs,
      (r.atDrain rtc arrivals).stats.synchronized⟩
  | _ => watch

/-- At a poll of a synchronized receiver, a packet of its epoch that came a timeout ago or longer is of a frame
that the cursor has passed. Behind a drain in order this is asked only of the packets whose timeout was not
over at that drain. -/
def Watch.PassedInTime (watch : Watch) (r : Receiver) : ReceiverTurn → Prop
  | .poll atUs => r.stats.synchronized = true → ∀ arrival ∈ watch.arrivals,
    r.receiverEpoch = some arrival.2.epoch → arrival.1 + r.recoveryTimeoutUs ≤ atUs →
      (watch.inOrder = true → watch.drainUs < arrival.1 + r.recoveryTimeoutUs) →
        ∀ next ∈ r.nextOutputFrameId, arrival.2.frameId < next
  | _ => True

-- The last quantifier goes over an option, not over all ids.
instance (watch : Watch) (r : Receiver) : (turn : ReceiverTurn) → Decidable (watch.PassedInTime r turn)
  | .poll _ => @instDecidableForall _ _ _ (@List.decidableBAll _ _ (fun _ => @instDecidableForall _ _ _
      (@instDecidableForall _ _ _ (@instDecidableForall _ _ _
        (@Option.decidableForallMem _ _ (fun _ => inferInstance) _)))) _)
  | .batch _ _ | .recordPliSent | .invalidateSync => .isTrue trivial

/-- The receiver turn by turn, with what its packets tell. -/
def watchMachine (rtc : Rtc) : Transducer (Receiver × Watch) ReceiverTurn (List Output) where
  step s turn :=
    (((receiverMachine rtc).final s.1 (turn.events rtc), s.2.next rtc s.1 turn),
      (receiverMachine rtc).outputs s.1 (turn.events rtc))

/-- At every poll of a run the cursor has passed the frames whose packets came a timeout ago. -/
def PassedInTime (rtc : Rtc) (recoveryTimeoutMs : ℤ) (turns : List ReceiverTurn) : Prop :=
  (watchMachine rtc).Everywhere (fun _ s turn => s.2.PassedInTime s.1 turn) [] (.new recoveryTimeoutMs, {}) turns

instance (rtc : Rtc) (recoveryTimeoutMs : ℤ) (turns : List ReceiverTurn) :
    Decidable (PassedInTime rtc recoveryTimeoutMs turns) :=
  inferInstanceAs (Decidable ((watchMachine rtc).Everywhere _ [] (.new recoveryTimeoutMs, {}) turns))

/-! ## Who opened an entry -/

/-- Each entry was opened at the time of a packet of its epoch, of its own frame or of a later one. -/
def Receiver.OpenedBy (r : Receiver) (arrivals : List (ℤ × FrameMetadata)) : Prop :=
  ∀ (id : UInt32) (frame : FrameAssembly), r.frames[id]? = some frame →
    ∃ metadata, (frame.firstSeenUs, metadata) ∈ arrivals ∧ id ≤ metadata.frameId ∧ metadata.epoch = frame.epoch

variable {arrivals : List (ℤ × FrameMetadata)} {watch : Watch}

private theorem openedBy_packet (arrival : ℤ × Message) (opened : r.OpenedBy arrivals) :
    (r.processReceiverPacket rtc arrival.1 arrival.2).OpenedBy
      (arrivals ++ (stampedArrival rtc arrival).toList) := by
  rw [stampedArrival]
  cases valid : Receiver.validMetadata rtc arrival.2 with
  | none =>
    rw [Receiver.processReceiverPacket_of_invalid valid, Option.map_none, Option.toList_none, List.append_nil]
    exact opened
  | some metadata =>
    rw [Option.map_some, Option.toList_some]
    have here : (arrival.1, metadata) ∈ arrivals ++ [(arrival.1, metadata)] :=
      List.mem_append_right _ (List.mem_singleton.mpr rfl)
    have earlier : ∀ (id : UInt32) (frame : FrameAssembly), (r.adoptEpoch metadata).frames[id]? = some frame →
        ∃ other, (frame.firstSeenUs, other) ∈ arrivals ++ [(arrival.1, metadata)] ∧ id ≤ other.frameId ∧
          other.epoch = frame.epoch := by
      intro id frame found
      obtain ⟨other, member, rest⟩ := opened id frame (Receiver.get_adoptEpoch found).1
      exact ⟨other, List.mem_append_left _ member, rest⟩
    intro id frame found
    rcases Receiver.get_processReceiverPacket valid found with ⟨adopted, _⟩ | ⟨rfl, below⟩ | ⟨rfl, _, rfl⟩
    · exact earlier id frame adopted
    · exact ⟨metadata, here, UInt32.le_of_lt below, rfl⟩
    · -- the assembly was opened before, or is by this packet
      simp only [Receiver.assemblyFor, Receiver.openAssembly, Receiver.fillSlot]
      split_ifs with unseen
      · exact ⟨metadata, here, UInt32.le_refl _, rfl⟩
      · cases before : (r.adoptEpoch metadata).frames[metadata.frameId]? with
        | none =>
          rw [before] at unseen
          exact absurd rfl unseen
        | some frame => exact earlier _ frame before

private theorem openedBy_packets (media : List (ℤ × Message)) (opened : r.OpenedBy arrivals) :
    ((receiverMachine rtc).final r (packetEvents media)).OpenedBy
      (arrivals ++ media.filterMap (stampedArrival rtc)) := by
  induction media generalizing r arrivals with
  | nil =>
    rw [List.filterMap_nil, List.append_nil]
    exact opened
  | cons arrival media ih =>
    have next := ih (@openedBy_packet rtc r arrivals arrival opened)
    rw [List.append_assoc] at next
    rw [List.filterMap_cons]
    cases stamped : stampedArrival rtc arrival with
    | none => rwa [stamped] at next
    | some metadata => rwa [stamped] at next

/-- Events that open nothing keep the epochs and the times of the entries. -/
private theorem openedBy_of_get (opened : r.OpenedBy arrivals)
    (kept : ∀ (id : UInt32) (frame : FrameAssembly), s.frames[id]? = some frame →
      ∃ before, r.frames[id]? = some before ∧ frame.firstSeenUs = before.firstSeenUs ∧
        frame.epoch = before.epoch) : s.OpenedBy arrivals := by
  intro id frame found
  obtain ⟨before, present, seen, epoch⟩ := kept id frame found
  rw [seen, epoch]
  exact opened id before present

/-! ## Turn by turn -/

/-- A poll changes neither the flag nor what is overdue. -/
private theorem overdue_of_polled (polled : Receiver.Polled r s) (atUs : ℤ) :
    r.Overdue atUs → s.Overdue atUs := by
  rintro ⟨next, frame, cursor, found, incomplete, late⟩
  obtain ⟨after, nackUs, present, same⟩ := polled.symm.get found
  refine ⟨next, after, polled.cursor.trans cursor, present, ?_, ?_⟩
  · rw [same] at incomplete
    exact incomplete
  · rw [same] at late
    rw [polled.config.timeout]
    exact late

/-- A drain in order that keeps the synchronization leaves no overdue frame at the cursor. -/
private theorem fresh_of_drain {next : UInt32} {frame : FrameAssembly} (kept : r.stats.synchronized = true)
    (still : (r.drainCompleteFrames atUs).1.stats.synchronized = true)
    (cursor : (r.drainCompleteFrames atUs).1.nextOutputFrameId = some next)
    (found : (r.drainCompleteFrames atUs).1.frames[next]? = some frame) (incomplete : frame.complete = false) :
    atUs < frame.firstSeenUs + r.recoveryTimeoutUs := by
  induction r, kept using Receiver.drain_induction with
  | absent r kept absent =>
    rw [Receiver.drain_absent kept absent] at cursor found
    rw [absent next cursor] at found
    contradiction
  | incomplete r kept id other here there open_ =>
    rw [Receiver.drain_incomplete kept here there open_] at still cursor found
    split_ifs at still cursor found with late
    · rw [Receiver.markUnsynchronized_synchronized] at still
      contradiction
    · obtain rfl := Option.some.inj (here.symm.trans cursor)
      obtain rfl := Option.some.inj (there.symm.trans found)
      omega
  | complete r kept id other here there whole ih =>
    obtain ⟨rest, rest_eq, step⟩ := Receiver.drain_complete atUs kept here there whole
    obtain rfl : r.passFrame id = rest := rest_eq.symm
    rw [step] at still cursor found
    exact ih still cursor found

/-- The entries were opened by packets that have come, and behind a drain in order the frame at the cursor was
not overdue at it. -/
private structure Watched (r : Receiver) (watch : Watch) : Prop where
  labelled : r.Labelled
  opened : r.OpenedBy watch.arrivals
  fresh : r.stats.synchronized = true → watch.inOrder = true → ∀ next frame, r.nextOutputFrameId = some next →
    r.frames[next]? = some frame → frame.complete = false → watch.drainUs < frame.firstSeenUs + r.recoveryTimeoutUs

private theorem watched_polled (watched : Watched r watch) (polled : Receiver.Polled r s) : Watched s watch := by
  refine ⟨fun id frame found => ?_, openedBy_of_get watched.opened fun id frame found => ?_,
    fun kept inOrder next frame cursor found incomplete => ?_⟩
  · obtain ⟨before, nackUs, present, rfl⟩ := polled.get found
    rw [polled.epoch]
    exact watched.labelled id before present
  · obtain ⟨before, nackUs, present, rfl⟩ := polled.get found
    exact ⟨before, present, rfl, rfl⟩
  · obtain ⟨before, nackUs, present, rfl⟩ := polled.get found
    rw [polled.config.timeout]
    exact watched.fresh (polled.synchronized.symm.trans kept) inOrder next before
      (polled.cursor.symm.trans cursor) present incomplete

private theorem watched_turn (watched : Watched r watch) (turn : ReceiverTurn) :
    Watched ((receiverMachine rtc).final r (turn.events rtc)) (watch.next rtc r turn) := by
  have labelled : ((receiverMachine rtc).final r (turn.events rtc)).Labelled :=
    (receiverMachine rtc).preserves (I := Receiver.Labelled)
      (fun _ event (_ : True) holds => Receiver.labelled_step rtc holds event) watched.labelled fun _ _ => trivial
  cases turn with
  | poll atUs => exact watched_polled watched (Receiver.poll_polled r atUs)
  | recordPliSent => exact ⟨watched.labelled, watched.opened, watched.fresh⟩
  | invalidateSync =>
    refine ⟨labelled, fun id frame found => ?_, fun kept => absurd kept Bool.false_ne_true⟩
    exact absurd found (by simp [ReceiverTurn.events, Receiver.step, Receiver.invalidateSync])
  | batch arrivals drainUs =>
    have split : (receiverMachine rtc).final r ((ReceiverTurn.batch arrivals drainUs).events rtc) =
        ((r.atDrain rtc arrivals).drainCompleteFrames drainUs).1 := by
      rw [ReceiverTurn.events, Transducer.final_cons, Transducer.final_append]
      rfl
    rw [split] at labelled ⊢
    obtain ⟨_, config, entries, _⟩ := Receiver.drain_spec (r.atDrain rtc arrivals) drainUs
    refine ⟨labelled, ?_, fun kept inOrder next frame cursor found incomplete => ?_⟩
    · have bound : ({ r with receiverSend := true } : Receiver).OpenedBy watch.arrivals := watched.opened
      exact openedBy_of_get (openedBy_packets _ bound) fun id frame found =>
        ⟨frame, entries id frame found, rfl, rfl⟩
    · rw [config.timeout]
      exact fresh_of_drain inOrder kept cursor found incomplete

/-- A poll that comes when the cursor has passed what is a timeout old finds nothing overdue. -/
private theorem not_overdue (watched : Watched r watch) (passed : watch.PassedInTime r (.poll atUs))
    (kept : r.stats.synchronized = true) : ¬r.Overdue atUs := by
  rintro ⟨next, frame, cursor, found, incomplete, late⟩
  obtain ⟨metadata, came, above, epoch⟩ := watched.opened next frame found
  have own := (watched.labelled next frame found).2
  rw [← epoch] at own
  have below := passed kept _ came own (by omega)
    (fun inOrder => watched.fresh kept inOrder next frame cursor found incomplete) next cursor
  exact absurd (UInt32.lt_of_lt_of_le below above) (UInt32.lt_irrefl _)

/-! ## Runs -/

theorem stateAfter_poll (rtc : Rtc) (recoveryTimeoutMs : ℤ) (turns : List ReceiverTurn) (atUs : ℤ) :
    stateAfter rtc recoveryTimeoutMs (turns ++ [.poll atUs]) =
      ((stateAfter rtc recoveryTimeoutMs turns).poll atUs).1 := by
  rw [stateAfter, turnEvents_append, Transducer.final_append]
  rfl

/-- The watch goes along with the receiver. -/
private theorem watched_run (watched : Watched r watch) (turns : List ReceiverTurn) :
    ((watchMachine rtc).final (r, watch) turns).1 = (receiverMachine rtc).final r (turnEvents rtc turns) ∧
      Watched ((watchMachine rtc).final (r, watch) turns).1 ((watchMachine rtc).final (r, watch) turns).2 := by
  induction turns generalizing r watch with
  | nil => exact ⟨rfl, watched⟩
  | cons turn turns ih =>
    obtain ⟨same, last⟩ := ih (@watched_turn rtc r watch watched turn)
    refine ⟨same.trans ?_, last⟩
    rw [turnEvents, turnEvents, List.flatMap_cons, Transducer.final_append]

/-- What the poll at the end finds is what was there before it. -/
private theorem noticesOverdue (passed : PassedInTime rtc recoveryTimeoutMs turns) :
    NoticesOverdue rtc recoveryTimeoutMs turns := by
  have opened : Watched (.new recoveryTimeoutMs) {} := by
    refine ⟨Receiver.labelled_new recoveryTimeoutMs, fun id frame found => ?_,
      fun kept => absurd kept Bool.false_ne_true⟩
    exact absurd found (by simp [Receiver.new])
  intro before atUs after cut
  rw [stateAfter_poll]
  intro polled kept late
  have last : Receiver.Polled (stateAfter rtc recoveryTimeoutMs before) polled := Receiver.poll_polled _ atUs
  obtain ⟨same, watched⟩ := @watched_run rtc _ _ opened before
  have here := (watchMachine rtc).everywhere_iff_cut.mp passed before (.poll atUs) after cut
  rw [same] at watched here
  exact not_overdue watched here (last.synchronized.symm.trans kept) (overdue_of_polled last.symm atUs late)

/-- The recovery loop asks for a keyframe when a receiver is not synchronized. -/
private theorem requestsForOverdue_iff (rtc : Rtc) (pli : Message) (recoveryTimeoutMs : ℤ)
    (turns : List ReceiverTurn) :
    RequestsForOverdue rtc pli recoveryTimeoutMs turns ↔ NoticesOverdue rtc recoveryTimeoutMs turns := by
  constructor
  · rintro requests before atUs after rfl polled kept late
    have state := stateAfter_poll rtc recoveryTimeoutMs before atUs
    have polledLate : ((stateAfter rtc recoveryTimeoutMs before).poll atUs).1.Overdue atUs := state ▸ late
    have asked := requests before atUs after rfl ⟨stateAfter rtc recoveryTimeoutMs before, none, 0, [], {}, {}⟩
      250000 rfl rfl (le_refl _) polledLate
    have synchronized : polled.needsKeyframe = false := congrArg not kept
    simp only [Protocol.test, Protocol.step, Receiver.step, ← state] at asked
    rw [if_neg (fun all => Bool.false_ne_true (synchronized.symm.trans all.2.2.1))] at asked
    contradiction
  · rintro notices before atUs after rfl s testUs same idle rested polled late
    have lost : polled.receiver.needsKeyframe = true := by
      have noticed := notices before atUs after rfl
      rw [stateAfter_poll, ← same] at noticed
      have flag : polled.receiver.stats.synchronized ≠ true := fun kept => noticed kept late
      exact congrArg not (Bool.eq_false_of_not_eq_true flag)
    rw [Protocol.test, if_pos ⟨idle, rfl, lost, rested⟩]

/-- In every run of the threads in which, at each poll, the cursor has passed the frames whose packets came a
timeout ago, polls notice overdue frames, and the recovery loop asks for a keyframe when there is one. -/
theorem overdue_noticed (pli : Message) (passed : PassedInTime rtc recoveryTimeoutMs turns) :
    NoticesOverdue rtc recoveryTimeoutMs turns ∧ RequestsForOverdue rtc pli recoveryTimeoutMs turns := by
  have notices := noticesOverdue passed
  exact ⟨notices, (requestsForOverdue_iff rtc pli recoveryTimeoutMs turns).mpr notices⟩

private def received (frameId : UInt32) (index count : UInt16) (keyframe : Bool) : MessagePtr :=
  some (addFrameMetadata .rfc5761 ⟨1, frameId, index, count, keyframe⟩
    (Rtp.packet (UInt16.ofNat frameId.toNat) false [1]))

/-- The second packet of frame 2 comes in time. Frame 3 is given up by the drain of a later batch, and the poll
behind it finds the receiver unsynchronized. -/
private def finished : List ReceiverTurn :=
  [.batch [(1000, received 1 0 1 true), (1000, received 2 0 2 false)] 1000, .poll 1000, .poll 500000,
    .batch [(600000, received 2 1 2 false), (600000, received 3 0 2 false)] 600000, .poll 600000, .poll 1590000,
    .batch [(1610000, received 4 0 1 false)] 1610000, .poll 3000000]

theorem finished_noticed : (stateAfter .rfc5761 1000 (finished.take 6)).stats.synchronized = true ∧
    (stateAfter .rfc5761 1000 finished).stats.synchronized = false ∧
    NoticesOverdue .rfc5761 1000 finished ∧ RequestsForOverdue .rfc5761 pictureLoss 1000 finished :=
  ⟨by decide +kernel, by decide +kernel, @overdue_noticed .rfc5761 1000 finished pictureLoss (by decide +kernel)⟩

/-- A keyframe, the first of two packets of the next frame, and then nothing but polls. -/
private def stalled : List ReceiverTurn :=
  [.batch [(1000, received 1 0 1 true), (1000, received 2 0 2 false)] 1000, .poll 1000, .poll 2001000]

/-- The receiver stays synchronized two seconds after the last packet, with a timeout of one, and the
recovery loop asks for nothing. -/
theorem stalled_not_noticed :
    (stateAfter .rfc5761 1000 stalled).stats.synchronized = true ∧
      (stateAfter .rfc5761 1000 stalled).Overdue 2001000 ∧ ¬NoticesOverdue .rfc5761 1000 stalled ∧
      ¬RequestsForOverdue .rfc5761 pictureLoss 1000 stalled := by
  have kept : (stateAfter .rfc5761 1000 stalled).stats.synchronized = true := by decide +kernel
  have late : (stateAfter .rfc5761 1000 stalled).Overdue 2001000 := by decide +kernel
  have unnoticed : ¬NoticesOverdue .rfc5761 1000 stalled := fun notices =>
    notices (stalled.take 2) 2001000 [] rfl kept late
  exact ⟨kept, late, unnoticed, fun requests => unnoticed ((requestsForOverdue_iff _ _ _ _).mp requests)⟩

end WeakNetVideo
