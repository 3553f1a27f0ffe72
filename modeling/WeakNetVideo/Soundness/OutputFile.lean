import WeakNetVideo.Model.VideoReceiver
import WeakNetVideo.Soundness.FrameGate

/-! # The output file

Only frames that decode are written. A decoder that goes on without a reset has decoded the frame before,
so a frame that is no keyframe is written right behind the one it refers to; behind a reset nothing but a
keyframe decodes. This holds however the decoding ends, and for the frames that are still on their way
when the transport is told that one of them has failed.
-/

namespace WeakNetVideo

variable {rtc : Rtc} {C : Type*} {codec : Codec C} {depacketize : FrameAssembly → List Byte}
  {v : VideoReceiver C} {last : Option FrameAssembly} {frame : FrameAssembly}
  {frames ready written : List FrameAssembly}

/-- The frames that a run passes to `onFrame`. -/
def passedFrames (rtc : Rtc) (codec : Codec C) (depacketize : FrameAssembly → List Byte)
    (v : VideoReceiver C) (events : List VideoReceiverEvent) : List FrameAssembly :=
  ((videoReceiverMachine rtc codec depacketize).outputs v events).flatMap Playback.passed

/-- The frames that a run writes to the output file. -/
def writtenFrames (rtc : Rtc) (codec : Codec C) (depacketize : FrameAssembly → List Byte)
    (v : VideoReceiver C) (events : List VideoReceiverEvent) : List FrameAssembly :=
  ((videoReceiverMachine rtc codec depacketize).outputs v events).flatMap Playback.written

/-- The keyframes of a run are those whose bytes hold one. -/
def KeyframesAreStamped (rtc : Rtc) (codec : Codec C) (depacketize : FrameAssembly → List Byte)
    (v : VideoReceiver C) (events : List VideoReceiverEvent) : Prop :=
  ∀ frame ∈ passedFrames rtc codec depacketize v events,
    containsH264Idr (depacketize frame) = frame.keyframe

/-! ## Frames that go on from one another -/

/-- Each of the frames is a keyframe or follows the one before it. -/
def Joined (last : Option FrameAssembly) (frames : List FrameAssembly) : Prop :=
  ∃ marked, marked.map Prod.snd = frames ∧ Gated last marked

private theorem Joined.nil : Joined last [] := ⟨[], rfl, trivial⟩

private theorem Joined.append (first : Joined last frames) (second : Joined (lastFrame last frames) ready) :
    Joined last (frames ++ ready) := by
  obtain ⟨marked, rfl, gated⟩ := first
  obtain ⟨behind, rfl, gated'⟩ := second
  exact ⟨marked ++ behind, List.map_append, gated_append gated gated'⟩

private theorem joined_singleton
    (goesOn : frame.keyframe = true ∨ ∃ previous, last = some previous ∧ Follows previous frame) :
    Joined last [frame] := by
  rcases goesOn with keyframe | follows
  · exact ⟨[(true, frame)], rfl, keyframe, trivial⟩
  · exact ⟨[(false, frame)], rfl, follows, trivial⟩

theorem Joined.head (joined : Joined last (frame :: ready)) :
    (frame.keyframe = true ∨ ∃ previous, last = some previous ∧ Follows previous frame) ∧
      Joined (some frame) ready := by
  obtain ⟨_ | ⟨⟨gap, first⟩, marked⟩, same, gated⟩ := joined
  · contradiction
  · obtain ⟨rfl, rest⟩ := List.cons.inj same
    refine ⟨?_, marked, rest, gated.2⟩
    cases gap with
    | true => exact .inl gated.1
    | false => exact .inr gated.1

private theorem lastFrame_append (last : Option FrameAssembly) (frames ready : List FrameAssembly) :
    lastFrame last (frames ++ ready) = lastFrame (lastFrame last frames) ready := by
  simp only [lastFrame, List.getLast?_append, Option.or_assoc]

private theorem lastFrame_cons (last : Option FrameAssembly) (frame : FrameAssembly)
    (ready : List FrameAssembly) : lastFrame last (frame :: ready) = lastFrame (some frame) ready := by
  rw [← List.singleton_append, lastFrame_append]
  rfl

/-- What the transport hands on in a run goes on from what it has handed on before. -/
theorem joined_events {gap : Bool} {r : Receiver} (gate : Gate gap last r)
    (events : List ReceiverEvent) :
    let frames := ((receiverMachine rtc).outputs r events).flatMap Output.frames
    Joined last frames ∧ ∃ gap, Gate gap (lastFrame last frames) ((receiverMachine rtc).final r events) := by
  induction events generalizing gap last r with
  | nil => exact ⟨.nil, gap, gate⟩
  | cons event events ih =>
    obtain ⟨⟨marked, same, gated, _⟩, next⟩ := gate_step rtc gate event
    obtain ⟨joined, last'⟩ := ih next
    intro frames
    rw [show frames = (r.step rtc event).2.frames ++ _ from List.flatMap_cons, lastFrame_append]
    exact ⟨.append ⟨marked, same, gated⟩ joined, last'⟩

/-! ## The invariant of the file -/

/-- What holds between two steps: `last` is the frame that came last to `onFrame`. As long as no reset is
due, it has been decoded, and written when there is a file. -/
structure Recorded (depacketize : FrameAssembly → List Byte) (last : Option FrameAssembly)
    (written : List FrameAssembly) (v : VideoReceiver C) : Prop where
  gate : ∃ gap, Gate gap (lastFrame last v.ready) v.transport
  joined : Joined last v.ready
  clean : Joined none written
  file : ∀ bytes ∈ v.output, bytes = written.flatMap depacketize
  decoded : v.resetDecoder = false →
    v.outputStarted = true ∧ (v.output.isSome = true → written.getLast? = last)

private theorem recorded_incoming (recorded : Recorded depacketize last written v) (batch : Batch) :
    Recorded depacketize last written (v.step rtc codec depacketize (.incoming batch)).1 := by
  rw [VideoReceiver.step]
  split_ifs with through
  · obtain ⟨gap, gate⟩ := recorded.gate
    rw [List.isEmpty_iff.mp through] at gate
    have frames := call_frames rtc v.transport (.incoming batch)
    have final := call_expands rtc v.transport (.incoming batch)
    obtain ⟨joined, gate'⟩ := @joined_events rtc _ _ _ gate (ReceiverCall.events rtc (.incoming batch))
    rw [← frames] at joined gate'
    rw [← final] at gate'
    refine ⟨gate', joined, recorded.clean, recorded.file, fun kept => recorded.decoded ?_⟩
    exact (Bool.or_eq_false_iff.mp kept).1
  · exact recorded

/-- A frame that fails to decode leaves the file as it is; the transport waits for a keyframe. -/
private theorem recorded_failed (recorded : Recorded depacketize last written v)
    (first : v.ready = frame :: ready) (failed : (codec.decode (if v.resetDecoder then codec.reopen v.decoder
      else v.decoder) (depacketize frame)).2 = false) :
    (v.onFrame codec (depacketize frame)).2 = false ∧ Recorded depacketize (some frame) written
      { (v.onFrame codec (depacketize frame)).1 with ready := ready } := by
  obtain ⟨gap, gate⟩ := recorded.gate
  have next := (gate_step .rfc5761 gate .invalidateSync).gate
  rw [first, lastFrame_cons] at next
  simp only [VideoReceiver.onFrame, failed, Bool.not_false, if_true]
  refine ⟨trivial, ⟨_, next⟩, (first ▸ recorded.joined).head.2, recorded.clean,
    recorded.file, fun kept => by contradiction⟩

/-- A frame that is decoded is written behind a keyframe, and only then. -/
private theorem recorded_decoded (starts : codec.StartsWithKeyframe)
    (recorded : Recorded depacketize last written v) (first : v.ready = frame :: ready)
    (stamped : containsH264Idr (depacketize frame) = frame.keyframe)
    (rendered : (codec.decode (if v.resetDecoder then codec.reopen v.decoder else v.decoder)
      (depacketize frame)).2 = true) :
    Recorded depacketize (some frame)
      (written ++ if (v.onFrame codec (depacketize frame)).2 then [frame] else [])
      { (v.onFrame codec (depacketize frame)).1 with ready := ready } := by
  obtain ⟨goesOn, joined⟩ := (first ▸ recorded.joined).head
  -- behind a reset only a keyframe can be decoded
  have fresh : frame.keyframe = true ∨ v.resetDecoder = false := by
    by_contra neither
    obtain ⟨delta, reset⟩ := not_or.mp neither
    rw [Bool.not_eq_true] at delta
    rw [if_pos (by simpa using reset), starts _ _ (stamped.trans delta)] at rendered
    contradiction
  have started : (v.outputStarted || frame.keyframe) = true := by
    rcases fresh with keyframe | kept
    · rw [keyframe, Bool.or_true]
    · rw [(recorded.decoded kept).1, Bool.true_or]
  simp only [VideoReceiver.onFrame, rendered, stamped, started, Bool.not_true, Bool.false_eq_true, if_false,
    if_true, Bool.and_true]
  have gate := recorded.gate
  rw [first, lastFrame_cons] at gate
  cases output : v.output with
  | none =>
    simp only [Option.isSome_none, Bool.false_eq_true, if_false, List.append_nil, Option.map_none]
    exact ⟨gate, joined, recorded.clean, fun _ none => by contradiction,
      fun _ => ⟨rfl, fun none => by contradiction⟩⟩
  | some bytes =>
    simp only [Option.isSome_some, if_true, Option.map_some]
    refine ⟨gate, joined, .append recorded.clean (joined_singleton ?_), ?_, fun _ => ⟨rfl, fun _ => ?_⟩⟩
    · rcases fresh with keyframe | kept
      · exact .inl keyframe
      · rw [lastFrame, (recorded.decoded kept).2 (by rw [output]; rfl), Option.or_none]
        exact goesOn
    · simp [recorded.file bytes output]
    · simp

private theorem recorded_transport (rtc : Rtc) (recorded : Recorded depacketize last written v)
    (event : ReceiverEvent) (other : ∀ atUs, event ≠ .drain atUs) :
    Recorded depacketize last written { v with transport := (v.transport.step rtc event).1 } := by
  obtain ⟨gap, gate⟩ := recorded.gate
  have next := (gate_step rtc gate event).gate
  rw [Receiver.step_frames_of_ne_drain rtc v.transport other] at next
  exact ⟨⟨_, next⟩, recorded.joined, recorded.clean, recorded.file, recorded.decoded⟩

/-- One step keeps the file clean. -/
theorem recorded_step (starts : codec.StartsWithKeyframe) (recorded : Recorded depacketize last written v)
    (event : VideoReceiverEvent)
    (stamped : ∀ frame ∈ (v.step rtc codec depacketize event).2.passed,
      containsH264Idr (depacketize frame) = frame.keyframe) :
    ∃ last, Recorded depacketize last (written ++ (v.step rtc codec depacketize event).2.written)
      (v.step rtc codec depacketize event).1 := by
  cases event with
  | incoming batch =>
    have silent : (v.step rtc codec depacketize (.incoming batch)).2.written = [] := by
      rw [VideoReceiver.step]
      split_ifs <;> rfl
    rw [silent, List.append_nil]
    exact ⟨last, recorded_incoming recorded batch⟩
  | frame =>
    rw [VideoReceiver.step] at stamped ⊢
    cases first : v.ready with
    | nil => exact ⟨last, by simpa using recorded⟩
    | cons frame ready =>
      rw [first] at stamped
      refine ⟨some frame, ?_⟩
      cases rendered : (codec.decode (if v.resetDecoder then codec.reopen v.decoder else v.decoder)
          (depacketize frame)).2 with
      | false =>
        obtain ⟨silent, next⟩ := recorded_failed recorded first rendered
        simp only [silent, Bool.false_eq_true, if_false, List.append_nil]
        exact next
      | true => exact recorded_decoded starts recorded first (stamped frame List.mem_cons_self) rendered
  | poll atUs =>
    refine ⟨last, ?_⟩
    rw [show (v.step rtc codec depacketize (.poll atUs)).2.written = [] from rfl, List.append_nil]
    exact recorded_transport rtc recorded (.poll atUs) (by simp)
  | recordPliSent =>
    refine ⟨last, ?_⟩
    rw [show (v.step rtc codec depacketize .recordPliSent).2.written = [] from rfl, List.append_nil]
    exact recorded_transport rtc recorded .recordPliSent (by simp)

theorem recorded_run (starts : codec.StartsWithKeyframe)
    (recorded : Recorded depacketize last written v) (events : List VideoReceiverEvent)
    (stamped : KeyframesAreStamped rtc codec depacketize v events) :
    ∃ last, Recorded depacketize last (written ++ writtenFrames rtc codec depacketize v events)
      ((videoReceiverMachine rtc codec depacketize).final v events) := by
  induction events generalizing last written v with
  | nil =>
    rw [writtenFrames, Transducer.outputs_nil, List.flatMap_nil, List.append_nil]
    exact ⟨last, recorded⟩
  | cons event events ih =>
    rw [KeyframesAreStamped, passedFrames, Transducer.outputs_cons, List.flatMap_cons,
      List.forall_mem_append] at stamped
    obtain ⟨_, next⟩ := recorded_step starts recorded event stamped.1
    rw [writtenFrames, Transducer.outputs_cons, List.flatMap_cons, ← List.append_assoc]
    exact ih next stamped.2

theorem recorded_attachTrack (depacketize : FrameAssembly → List Byte) (recoveryTimeoutMs : ℤ) (outputFile : Bool)
    (decoder : C) :
    Recorded depacketize none [] (VideoReceiver.attachTrack recoveryTimeoutMs outputFile decoder) := by
  refine ⟨⟨true, gate_new recoveryTimeoutMs⟩, .nil, .nil, ?_, fun kept => by contradiction⟩
  cases outputFile <;> simp [VideoReceiver.attachTrack]

/-- The frames written fall into segments of a keyframe and frames that follow it one by one, and the file
holds the bytes of these frames. -/
theorem outputFile_clean (rtc : Rtc) (codec : Codec C) (depacketize : FrameAssembly → List Byte)
    (recoveryTimeoutMs : ℤ) (outputFile : Bool) (decoder : C) (events : List VideoReceiverEvent)
    (starts : codec.StartsWithKeyframe)
    (stamped : KeyframesAreStamped rtc codec depacketize (.attachTrack recoveryTimeoutMs outputFile decoder)
      events) :
    let written := writtenFrames rtc codec depacketize (.attachTrack recoveryTimeoutMs outputFile decoder) events
    (∃ segments : List (List FrameAssembly), segments.flatten = written ∧
      ∀ segment ∈ segments, Segment segment) ∧
    ∀ bytes ∈ ((videoReceiverMachine rtc codec depacketize).final
      (.attachTrack recoveryTimeoutMs outputFile decoder) events).output, bytes = written.flatMap depacketize := by
  intro written
  obtain ⟨last, recorded⟩ := recorded_run starts
    (recorded_attachTrack depacketize recoveryTimeoutMs outputFile decoder) events stamped
  refine ⟨?_, recorded.file⟩
  obtain ⟨marked, same, gated⟩ := recorded.clean
  obtain ⟨tail, segments, split, whole, _, empty⟩ := segments_of_gated gated
  refine ⟨segments, ?_, whole⟩
  rw [List.nil_append] at same
  rw [show written = _ from same.symm, split, empty rfl, List.map_nil, List.nil_append, frames_segmentMarks]

/-! ## A run -/

/-- A codec that needs a keyframe to start, and takes no frame with a byte 255. -/
def strictCodec : Codec Bool where
  reopen _ := false
  newPacket context _ := (context, true)
  sendPacket context frame :=
    if 255 ∉ frame ∧ (context = true ∨ containsH264Idr frame = true) then (true, 0) else (context, -1)
  receiveFrames context := (context, [{}])

private theorem strictCodec_starts : strictCodec.StartsWithKeyframe := by
  intro context frame delta
  simp [Codec.decode, strictCodec, delta]

/-- The frame of packets that hold a NAL unit each. -/
def nalUnits (frame : FrameAssembly) : List Byte :=
  frame.packets.flatMap fun packet => packet.elim [] fun message =>
    [0, 0, 0, 1] ++ message.bytes.drop (declaredHeaderSize message.bytes)

def framePacket (frameId : UInt32) (keyframe : Bool) (nalUnit : List Byte) : ℤ × MessagePtr :=
  (1000, some (addFrameMetadata .rfc5761 ⟨1, frameId, 0, 1, keyframe⟩
    (Rtp.packet (UInt16.ofNat frameId.toNat) true nalUnit)))

/-- Frame 2 cannot be decoded, and frame 3 comes with it. Frame 4 finds the receiver waiting for the
keyframe 5. -/
private def brokenInBatch : List VideoReceiverEvent :=
  [.incoming ⟨[framePacket 1 true [0x65, 1]], 1000, 1000⟩, .frame,
    .incoming ⟨[framePacket 2 false [0x41, 255], framePacket 3 false [0x41, 3]], 2000, 2000⟩, .frame,
    .poll 2500, .frame, .incoming ⟨[framePacket 4 false [0x41, 4]], 3000, 3000⟩, .recordPliSent,
    .incoming ⟨[framePacket 5 true [0x65, 5], framePacket 6 false [0x41, 6]], 4000, 4000⟩, .frame,
    .incoming ⟨[], 5000, 5000⟩, .frame]

theorem outputFile_clean_brokenInBatch :
    let written := writtenFrames .rfc5761 strictCodec nalUnits (.attachTrack 1000 true false) brokenInBatch
    written.map FrameAssembly.frameId = [1, 5, 6] ∧
    (∃ segments : List (List FrameAssembly), segments.flatten = written ∧
      ∀ segment ∈ segments, Segment segment) ∧
    ∀ bytes ∈ ((videoReceiverMachine .rfc5761 strictCodec nalUnits).final
      (.attachTrack 1000 true false) brokenInBatch).output, bytes = written.flatMap nalUnits :=
  ⟨by decide +kernel, outputFile_clean .rfc5761 strictCodec nalUnits 1000 true false brokenInBatch
    strictCodec_starts (by unfold KeyframesAreStamped; decide +kernel)⟩

end WeakNetVideo
