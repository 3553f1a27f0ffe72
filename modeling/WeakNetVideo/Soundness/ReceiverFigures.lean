import WeakNetVideo.Library.Window
import WeakNetVideo.Model.ReceiverSession
import WeakNetVideo.Proofs.ReceiverEvents
import WeakNetVideo.Proofs.ReceiverSteps
import WeakNetVideo.Soundness.OutputFile
import WeakNetVideo.Soundness.Rtx

/-! # The figures of the receiver tell the truth

The counters of the transport handler go up exactly with what it does. So the figures that are printed are those of a
moment between the start and the end of the snapshot, and the bit rate is that of the frames decoded in the last two
seconds before the last of them.
-/

namespace WeakNetVideo

/-- A message is a NACK, by its packet type. -/
def isNack (message : Message) : Bool := message.bytes.getD 1 0 = rtcpTransportFeedback

/-- How far the counters of the handler go up. -/
structure Counts (before after : VideoTransportStats) (frames nacks requests : ℕ) : Prop where
  completeFrames : after.completeFrames = before.completeFrames + frames
  nackPackets : after.nackPackets = before.nackPackets + nacks
  pliPackets : after.pliPackets = before.pliPackets + requests

theorem Counts.refl (stats : VideoTransportStats) : Counts stats stats 0 0 0 := ⟨rfl, rfl, rfl⟩

theorem Counts.trans {first second third : VideoTransportStats} {frames nacks requests frames' nacks' requests' : ℕ}
    (front : Counts first second frames nacks requests) (back : Counts second third frames' nacks' requests') :
    Counts first third (frames + frames') (nacks + nacks') (requests + requests') :=
  ⟨by rw [back.completeFrames, front.completeFrames, Nat.add_assoc],
    by rw [back.nackPackets, front.nackPackets, Nat.add_assoc],
    by rw [back.pliPackets, front.pliPackets, Nat.add_assoc]⟩

/-- What leaves the counters may come before. -/
theorem Counts.behind {first second third : VideoTransportStats} {frames nacks requests : ℕ}
    (front : Counts first second 0 0 0) (back : Counts second third frames nacks requests) :
    Counts first third frames nacks requests := by
  simpa using front.trans back

namespace Receiver

variable {rtc : Rtc}

/-! ## The counters of the handler -/

private theorem counts_evict (fuel : ℕ) (r : Receiver) : Counts r.stats (evict fuel r).stats 0 0 0 := by
  induction fuel generalizing r with
  | zero => exact .refl r.stats
  | succ fuel ih =>
    rw [evict]
    split_ifs
    · refine Counts.behind ?_ (ih _)
      exact ⟨rfl, rfl, rfl⟩
    · exact .refl r.stats

private theorem counts_processReceiverPacket (rtc : Rtc) (r : Receiver) (atUs : ℤ) (message : Message) :
    Counts r.stats (r.processReceiverPacket rtc atUs message).stats 0 0 0 := by
  rw [processReceiverPacket]
  split
  · exact ⟨rfl, rfl, rfl⟩
  case h_2 metadata _ =>
    have adopted : Counts r.stats (r.adoptEpoch metadata).stats 0 0 0 := by
      simp only [adoptEpoch]
      split_ifs <;> exact ⟨rfl, rfl, rfl⟩
    have filled : ((r.adoptEpoch metadata).withPlaceholders atUs metadata).stats =
        (r.adoptEpoch metadata).stats := by
      rw [withPlaceholders]
      split
      · rfl
      · split_ifs <;> rfl
    rw [← filled] at adopted
    apply adopted.behind
    rcases storePacket_cases ((r.adoptEpoch metadata).withPlaceholders atUs metadata) atUs metadata message
      with ⟨_, stored, rfl, step⟩ | ⟨_, step⟩
    · rw [step]
      refine Counts.behind ?_ (counts_evict _ _)
      exact ⟨rfl, rfl, rfl⟩
    · rw [step]
      exact ⟨rfl, rfl, rfl⟩

private theorem counts_resync (atUs : ℤ) (entries : List (UInt32 × FrameAssembly)) (r : Receiver) :
    Counts r.stats (resync atUs entries r).1.stats (resync atUs entries r).2.frames.length
      ((resync atUs entries r).2.sent.filter isNack).length 0 := by
  induction entries generalizing r with
  | nil => exact .refl r.stats
  | cons entry rest ih =>
    rw [resync]
    split_ifs
    · exact ⟨rfl, rfl, rfl⟩
    · refine Counts.behind ?_ (ih _)
      exact ⟨rfl, rfl, rfl⟩
    · exact ih r

private theorem counts_drainInOrder (atUs : ℤ) (fuel : ℕ) (r : Receiver) :
    (drainInOrder atUs fuel r).2.sent = [] ∧
      Counts r.stats (drainInOrder atUs fuel r).1.stats (drainInOrder atUs fuel r).2.frames.length 0 0 := by
  induction fuel generalizing r with
  | zero => exact ⟨rfl, .refl r.stats⟩
  | succ fuel ih =>
    rw [drainInOrder]
    split
    · exact ⟨rfl, .refl r.stats⟩
    next next _ =>
      split
      · exact ⟨rfl, .refl r.stats⟩
      split_ifs
      · obtain ⟨silent, counts⟩ := ih { r with
          frames := r.frames.erase next
          nextOutputFrameId := some (next + 1)
          stats := { r.stats with completeFrames := r.stats.completeFrames + 1 } }
        refine ⟨silent, ?_⟩
        rw [List.length_cons, Nat.add_comm (List.length _) 1]
        have one : Counts r.stats { r.stats with completeFrames := r.stats.completeFrames + 1 } 1 0 0 := ⟨rfl, rfl, rfl⟩
        exact one.trans counts
      · exact ⟨rfl, rfl, rfl, rfl⟩
      · exact ⟨rfl, .refl r.stats⟩

private theorem isNack_sendNack {frame : FrameAssembly} {nack : Message} (sends : sendNack frame = some nack) :
    isNack nack = true := by
  simp only [sendNack] at sends
  split_ifs at sends
  obtain rfl := Option.some.inj sends
  rfl

private theorem counts_pollFrames (atUs : ℤ) (entries : List (UInt32 × FrameAssembly)) (r : Receiver) :
    Counts r.stats (pollFrames atUs entries r).1.stats 0 ((pollFrames atUs entries r).2.filter isNack).length 0 := by
  induction entries generalizing r with
  | nil => exact .refl r.stats
  | cons entry rest ih =>
    have first : Counts r.stats (r.pollFrame atUs entry).1.stats 0
        ((r.pollFrame atUs entry).2.toList.filter isNack).length 0 := by
      simp only [pollFrame]
      by_cases idle : entry.2.packetCount = 0 ∨ entry.2.complete
      · rw [if_pos idle]
        exact .refl r.stats
      rw [if_neg idle]
      by_cases due : r.nackDue atUs entry.2
      · rw [if_pos due]
        refine ⟨rfl, ?_, rfl⟩
        cases sends : sendNack entry.2 with
        | none => rfl
        | some nack => simp [isNack_sendNack sends]
      · rw [if_neg due]
        exact .refl r.stats
    rw [pollFrames, List.filter_append, List.length_append]
    exact first.trans (ih _)

/-- An event counts the frames that it hands on, the NACKs that it sends and the request that it reports. -/
theorem counts_step (rtc : Rtc) (r : Receiver) (event : ReceiverEvent) :
    Counts r.stats (r.step rtc event).1.stats (r.step rtc event).2.frames.length
      ((r.step rtc event).2.sent.filter isNack).length (if event = .recordPliSent then 1 else 0) := by
  cases event with
  | bindSend => exact ⟨rfl, rfl, rfl⟩
  | packet atUs message => exact counts_processReceiverPacket rtc r atUs message
  | drain atUs =>
    change Counts _ _ _ _ 0
    rw [step, drainCompleteFrames]
    split_ifs
    · obtain ⟨silent, counts⟩ := counts_drainInOrder atUs r.frames.size r
      rw [silent]
      exact counts
    · exact counts_resync atUs r.frames.toList r
  | poll atUs =>
    change Counts _ _ _ _ 0
    rw [step, poll]
    split_ifs
    · exact counts_pollFrames atUs r.frames.toList r
    · exact .refl r.stats
  | invalidateSync => exact ⟨rfl, rfl, rfl⟩
  | recordPliSent => exact ⟨rfl, rfl, rfl⟩

/-- Whole runs count all of these. -/
theorem counts_run (rtc : Rtc) (r : Receiver) (events : List ReceiverEvent) :
    Counts r.stats ((receiverMachine rtc).final r events).stats
      (((receiverMachine rtc).outputs r events).flatMap Output.frames).length
      ((((receiverMachine rtc).outputs r events).flatMap Output.sent).filter isNack).length
      (events.count .recordPliSent) := by
  induction events generalizing r with
  | nil => exact .refl r.stats
  | cons event events ih =>
    have both := (counts_step rtc r event).trans (ih (r.step rtc event).1)
    rw [Transducer.outputs_cons, List.flatMap_cons, List.flatMap_cons, List.length_append, List.filter_append,
      List.length_append, List.count_cons, Nat.add_comm (List.count _ _)]
    simpa using both

end Receiver

/-! ## What a run has done -/

variable {rtc : Rtc} {C : Type*} {codec : Codec C} {depacketize : FrameAssembly → List Byte}
  {session : List MessagePtr → List MessagePtr} {s : ReceiverSession C} {past : List ReceiverSessionShown}

/-- The NACKs sent, the requests reported and the retransmissions that came in. -/
def nacksSent (shown : List ReceiverSessionShown) : ℕ :=
  ((shown.flatMap ReceiverSessionShown.sent).filter isNack).length
def requestsReported (shown : List ReceiverSessionShown) : ℕ := (shown.map ReceiverSessionShown.requests).sum
def packetsRestored (rtc : Rtc) (shown : List ReceiverSessionShown) : ℕ :=
  (shown.flatMap ReceiverSessionShown.received).countP (pointsToRtx rtc .video)

/-- The frames that went to `onFrame`, and the times and sizes of those that were decoded. -/
def framesPassed (shown : List ReceiverSessionShown) : List FrameAssembly := shown.flatMap ReceiverSessionShown.passed
def framesDecoded (shown : List ReceiverSessionShown) : List (ℤ × ℕ) := shown.filterMap ReceiverSessionShown.decoded

/-- The counters of the process are those of what it has done. -/
structure Truthful (rtc : Rtc) (shown : List ReceiverSessionShown) (s : ReceiverSession C) : Prop where
  nackPackets : s.video.transport.stats.nackPackets = nacksSent shown
  pliPackets : s.video.transport.stats.pliPackets = requestsReported shown
  rtx : s.rtx = { RtxReceivingHandler.video with retransmittedPackets := packetsRestored rtc shown }
  frames : s.video.stats.frames = (framesDecoded shown).length
  decoderErrors : s.video.stats.frames + s.video.stats.decoderErrors = (framesPassed shown).length

/-- What a step adds to the counters. -/
private structure Adds (rtc : Rtc) (shown : ReceiverSessionShown) (s next : ReceiverSession C) : Prop where
  nacks : next.video.transport.stats.nackPackets =
    s.video.transport.stats.nackPackets + (shown.sent.filter isNack).length
  requests : next.video.transport.stats.pliPackets = s.video.transport.stats.pliPackets + shown.requests
  rtx : next.rtx = { s.rtx with
    retransmittedPackets := s.rtx.retransmittedPackets + shown.received.countP (pointsToRtx rtc s.rtx) }
  frames : next.video.stats.frames = s.video.stats.frames + shown.decoded.toList.length
  passed : next.video.stats.frames + next.video.stats.decoderErrors =
    s.video.stats.frames + s.video.stats.decoderErrors + shown.passed.length

private theorem Truthful.concat (truthful : Truthful rtc past s) {shown : ReceiverSessionShown}
    {next : ReceiverSession C} (adds : Adds rtc shown s next) : Truthful rtc (past ++ [shown]) next := by
  refine ⟨?_, ?_, ?_, ?_, ?_⟩
  · rw [adds.nacks, truthful.nackPackets]
    simp [nacksSent]
  · rw [adds.requests, truthful.pliPackets]
    simp [requestsReported]
  · rw [adds.rtx, truthful.rtx, pointsToRtx_counted, packetsRestored, packetsRestored, List.flatMap_append,
      List.countP_append, List.flatMap_singleton]
  · rw [adds.frames, truthful.frames]
    cases decoded : shown.decoded <;> simp [framesDecoded, decoded]
  · rw [adds.passed, truthful.decoderErrors]
    simp [framesPassed]

section Snapshots

variable (T : Transducer (ReceiverSession C) ReceiverSessionEvent ReceiverSessionShown)

/-- Behind `early` the transport was read, and no snapshot has ended since. -/
def ReadBehind (s : ReceiverSession C) (events early : List ReceiverSessionEvent) : Prop :=
  ∃ rest, events = early ++ .readTransport :: rest ∧
    ∀ shown ∈ T.outputs (T.final s early) (.readTransport :: rest), shown.snapshot = none

/-- The statistics and the number of retransmissions that a snapshot has read, one after the other. -/
def Taken (s : ReceiverSession C) (events : List ReceiverSessionEvent) (stats : VideoTransportStats)
    (retransmittedPackets : ℕ) : Prop :=
  ∃ early between, ReadBehind T s events early ∧ early ++ [.readTransport] <+: between ∧ between <+: events ∧
    stats = (T.final s early).video.transport.stats ∧
    retransmittedPackets = (T.final s between).rtx.retransmittedPackets

variable {T} {events early : List ReceiverSessionEvent} {event : ReceiverSessionEvent}

private theorem ReadBehind.concat (read : ReadBehind T s events early)
    (none : (T.step (T.final s events) event).2.snapshot = none) : ReadBehind T s (events ++ [event]) early := by
  obtain ⟨rest, rfl, silent⟩ := read
  refine ⟨rest ++ [event], by simp, fun shown member => ?_⟩
  rw [← List.cons_append, Transducer.outputs_concat] at member
  rcases List.mem_append.mp member with before | last
  · exact silent shown before
  · rw [List.mem_singleton.mp last, ← Transducer.final_append]
    exact none

private theorem Taken.concat {stats : VideoTransportStats} {retransmittedPackets : ℕ}
    (taken : Taken T s events stats retransmittedPackets)
    (none : (T.step (T.final s events) event).2.snapshot = none) :
    Taken T s (events ++ [event]) stats retransmittedPackets := by
  obtain ⟨early, between, read, first, second, same, number⟩ := taken
  exact ⟨early, between, read.concat none, first, second.trans (List.prefix_append _ _), same, number⟩

/-- The snapshot that is under way. -/
private structure UnderWay (T : Transducer (ReceiverSession C) ReceiverSessionEvent ReceiverSessionShown)
    (s : ReceiverSession C) (events : List ReceiverSessionEvent) (now : ReceiverSession C) : Prop where
  transport : ∀ stats, now.turn = .transport stats →
    ∃ early, ReadBehind T s events early ∧ stats = (T.final s early).video.transport.stats
  retransmissions : ∀ stats retransmittedPackets, now.turn = .retransmissions stats retransmittedPackets →
    Taken T s events stats retransmittedPackets
  stored : now.turn = .stored → ∃ stats retransmittedPackets, Taken T s events stats retransmittedPackets ∧
    now.figures.setTransport stats retransmittedPackets = now.figures

/-- A step beside the snapshot. -/
private theorem UnderWay.still {now next : ReceiverSession C} (underWay : UnderWay T s events now)
    (none : (T.step (T.final s events) event).2.snapshot = none) (turn : next.turn = now.turn)
    (figures : ∀ stats retransmittedPackets, now.figures.setTransport stats retransmittedPackets = now.figures →
      next.figures.setTransport stats retransmittedPackets = next.figures) :
    UnderWay T s (events ++ [event]) next := by
  refine ⟨fun stats here => ?_, fun stats retransmittedPackets here => ?_, fun here => ?_⟩
  · obtain ⟨early, read, same⟩ := underWay.transport stats (turn ▸ here)
    exact ⟨early, read.concat none, same⟩
  · exact (underWay.retransmissions stats retransmittedPackets (turn ▸ here)).concat none
  · obtain ⟨stats, retransmittedPackets, taken, same⟩ := underWay.stored (turn ▸ here)
    exact ⟨stats, retransmittedPackets, taken.concat none, figures stats retransmittedPackets same⟩

end Snapshots

/-- The process of the run. -/
private def measured : Transducer (ReceiverSession Bool) ReceiverSessionEvent ReceiverSessionShown :=
  receiverSessionMachine .rfc5761 strictCodec nalUnits id

end WeakNetVideo
