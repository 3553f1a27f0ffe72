import WeakNetVideo.Soundness.FileDecoding

/-! # `next_frame` works on the frames of the file

The loop takes decoded frames off the file as the plain loop takes them off a list, up to the first failure, whatever
the profiles of the calls.
-/

namespace WeakNetVideo

/-- The frames in front of the first failure. -/
def framesBeforeError : List DecodedItem → List DecodedFrame
  | .ok frame :: items => frame :: framesBeforeError items
  | .error _ :: _ => []
  | [] => []

namespace FileTranscoding

open FileDecoding

variable {Context Packet State : Type*} {decoder : VideoDecoder Context Packet} {codec : PacketCodec State Packet}
  {answers : AnswersFor decoder codec} {encoder : FrameEncoder} {fps : ℤ} {forceKeyframe : Bool}

/-- The loop of `next_frame` over the frames that are left, up to a failure. -/
def takenFrames (answers : AnswersFor decoder codec) (encoder : FrameEncoder) (fps : ℤ) (forceKeyframe : Bool)
    (reader : FileTranscoding Context Packet) :
    TimedFileReader × List DecodedFrame × Option (DecodedFrame × EncodedPacket) :=
  TimedFileReader.transcodeNext encoder fps forceKeyframe reader.timing
    (framesBeforeError (remaining answers reader.decoding))

/-- The loop has gone over the frames of the file. -/
structure TakesFrames (answers : AnswersFor decoder codec) (encoder : FrameEncoder) (fps : ℤ) (forceKeyframe : Bool)
    (reader after : FileTranscoding Context Packet)
    (made : Except DecodingError (Option (DecodedFrame × EncodedPacket))) : Prop where
  inStep : InStep answers after.decoding
  alloc : after.decoding.failing = 0
  fewer : (remaining answers after.decoding).length ≤ (remaining answers reader.decoding).length
  timing : after.timing = (takenFrames answers encoder fps forceKeyframe reader).1
  packet : made.toOption.join = (takenFrames answers encoder fps forceKeyframe reader).2.2
  rest : made.toOption.join.isSome →
    framesBeforeError (remaining answers after.decoding) = (takenFrames answers encoder fps forceKeyframe reader).2.1

/-- A turn that takes a frame off the list as off the file, and goes on. -/
theorem TakesFrames.behind {reader between after : FileTranscoding Context Packet}
    {made : Except DecodingError (Option (DecodedFrame × EncodedPacket))}
    (takes : TakesFrames answers encoder fps forceKeyframe between after made)
    (shorter : (remaining answers between.decoding).length ≤ (remaining answers reader.decoding).length)
    (same : takenFrames answers encoder fps forceKeyframe reader =
      takenFrames answers encoder fps forceKeyframe between) :
    TakesFrames answers encoder fps forceKeyframe reader after made where
  inStep := takes.inStep
  alloc := takes.alloc
  fewer := takes.fewer.trans shorter
  timing := by rw [same]; exact takes.timing
  packet := by rw [same]; exact takes.packet
  rest := by rw [same]; exact takes.rest

theorem transcodeLoop_takes {turns : ℕ} {reader : FileTranscoding Context Packet}
    (inStep : InStep answers reader.decoding) (alloc : reader.decoding.failing = 0)
    (enough : (remaining answers reader.decoding).length < turns) :
    ∃ after made, transcodeLoop decoder encoder fps forceKeyframe turns reader = some (after, made) ∧
      TakesFrames answers encoder fps forceKeyframe reader after made := by
  induction turns generalizing reader with
  | zero => exact absurd enough (Nat.not_lt_zero _)
  | succ turns ih =>
    obtain ⟨first, others, still, given⟩ := nextDecodedFrame_first inStep alloc
    cases returned : reader.decoding.nextDecodedFrame decoder with
    | mk decoding decoded =>
      simp only [returned] at first others still given
      subst first
      cases left : remaining answers reader.decoding with
      | nil =>
        rw [left] at returned others
        refine ⟨{ reader with decoding := decoding }, .ok none, ?_, still, given, ?_, ?_, ?_, ?_⟩
        · simp only [transcodeLoop, returned, firstOf]
        · rw [others, left, List.tail_nil]
        · simp only [takenFrames, left, framesBeforeError, TimedFileReader.transcodeNext]
        · simp only [takenFrames, left, framesBeforeError, TimedFileReader.transcodeNext]
          rfl
        · exact fun made => absurd made Bool.false_ne_true
      | cons item items =>
        rw [left] at returned others enough
        rw [List.tail_cons] at others
        cases item with
        | error error =>
          refine ⟨{ reader with decoding := decoding }, .error error, ?_, still, given, ?_, ?_, ?_, ?_⟩
          · simp only [transcodeLoop, returned, firstOf, called, Except.map]
          · rw [others, left]
            exact Nat.le_succ _
          · simp only [takenFrames, left, framesBeforeError, TimedFileReader.transcodeNext]
          · simp only [takenFrames, left, framesBeforeError, TimedFileReader.transcodeNext]
            rfl
          · exact fun made => absurd made Bool.false_ne_true
        | ok decodedFrame =>
          have fewer : items.length < turns := Nat.lt_of_succ_lt_succ enough
          have shorter : items.length ≤ (remaining answers reader.decoding).length := by
            rw [left]
            exact Nat.le_succ _
          cases due : reader.timing.shouldOutputDecodedFrame decodedFrame fps with
          | mk timing output =>
            cases output with
            | false =>
              have same : takenFrames answers encoder fps forceKeyframe reader =
                  takenFrames answers encoder fps forceKeyframe ⟨timing, decoding⟩ := by
                simp only [takenFrames, left, others, framesBeforeError, TimedFileReader.transcodeNext, due]
              obtain ⟨after, made, ran, takes⟩ := @ih ⟨timing, decoding⟩ still given (by rw [others]; exact fewer)
              refine ⟨after, made, ?_, takes.behind (by rw [others]; exact shorter) same⟩
              simpa only [transcodeLoop, returned, firstOf, called, Except.map, due] using ran
            | true =>
              cases encoded : encoder.receive timing.encoderPts forceKeyframe with
              | none =>
                have same : takenFrames answers encoder fps forceKeyframe reader =
                    takenFrames answers encoder fps forceKeyframe
                      ⟨{ timing with encoderPts := timing.encoderPts + 1 }, decoding⟩ := by
                  simp only [takenFrames, left, others, framesBeforeError, TimedFileReader.transcodeNext, due, encoded]
                obtain ⟨after, made, ran, takes⟩ :=
                  @ih ⟨{ timing with encoderPts := timing.encoderPts + 1 }, decoding⟩ still given
                    (by rw [others]; exact fewer)
                refine ⟨after, made, ?_, takes.behind (by rw [others]; exact shorter) same⟩
                simpa only [transcodeLoop, returned, firstOf, called, Except.map, due, encoded] using ran
              | some packet =>
                have took : takenFrames answers encoder fps forceKeyframe reader =
                    ({ timing with encoderPts := timing.encoderPts + 1 }, framesBeforeError items,
                      some (decodedFrame, packet)) := by
                  simp only [takenFrames, left, framesBeforeError, TimedFileReader.transcodeNext, due, encoded]
                refine ⟨⟨{ timing with encoderPts := timing.encoderPts + 1 }, decoding⟩,
                  .ok (some (decodedFrame, packet)), ?_, still, given, ?_, ?_, ?_, fun _ => ?_⟩
                · simp only [transcodeLoop, returned, firstOf, called, Except.map, due, encoded]
                · rw [others]
                  exact shorter
                · rw [took]
                · rw [took]
                  rfl
                · rw [took, others]

/-- Calls of `next_frame` on a file return what the plain loop over its frames does. Each has returned when it may
take more turns than there is left to come out. -/
theorem nextFrames_eq {turns : ℕ} {requests : List FrameRequest} {reader : FileTranscoding Context Packet}
    (inStep : InStep answers reader.decoding) (alloc : reader.decoding.failing = 0)
    (enough : (remaining answers reader.decoding).length < turns) :
    nextFrames decoder turns requests reader =
      some (reader.timing.nextRequestedFrames (framesBeforeError (remaining answers reader.decoding)) requests) := by
  induction requests generalizing reader with
  | nil => rfl
  | cons request requests ih =>
    obtain ⟨profile, forceKeyframe, encoder⟩ := request
    set configured : FileTranscoding Context Packet :=
      { reader with timing := reader.timing.configured profile } with configuredAs
    obtain ⟨after, made, ran, takes⟩ := @transcodeLoop_takes _ _ _ decoder codec answers encoder profile.fps
      (forceKeyframe || reader.timing.outdated profile) turns configured inStep alloc enough
    have timing := takes.timing
    have packet := takes.packet
    have rest := takes.rest
    simp only [takenFrames, configuredAs] at timing packet rest
    rw [nextFrames, nextFrame, ran, TimedFileReader.nextRequestedFrames, TimedFileReader.nextTimedFrame]
    cases made with
    | error error =>
      have nothing := packet.symm.trans (by rfl : (Except.toOption (Except.error error)).join = none)
      simp only [Option.map_some, Except.map, nothing, Option.map_none]
    | ok made =>
      cases made with
      | none =>
        have nothing := packet.symm.trans (by rfl : (Except.toOption (Except.ok none)).join = none)
        simp only [Option.map_some, Except.map, nothing, Option.map_none]
      | some made =>
        have same := packet.symm.trans (by rfl : (Except.toOption (Except.ok (some made))).join = some made)
        have later := @ih after takes.inStep takes.alloc (takes.fewer.trans_lt enough)
        simp only [Option.map_some, Except.map, same, later, rest rfl, timing]

/-- Of an opened file, calls of `next_frame`, each with a profile of its own, return what the plain loop makes of the
frames of the video stream in front of the first failure: none is lost, doubled or put in another's place between the
packets and the encoder. -/
theorem file_transcoded (answers : AnswersFor decoder codec) (timing : TimedFileReader)
    (packets : List (FilePacket Packet)) (videoStreamIndex : ℤ) (c : Context) (state : State)
    (fresh : answers.view c = ⟨state, [], false⟩) (turns : ℕ)
    (enough : (codec.decodeAll state (streamPackets videoStreamIndex packets)).length < turns)
    (requests : List FrameRequest) :
    nextFrames decoder turns requests ⟨timing, opened packets videoStreamIndex c⟩ =
      some (timing.nextRequestedFrames
        (framesBeforeError (codec.decodeAll state (streamPackets videoStreamIndex packets))) requests) := by
  obtain ⟨inStep, all⟩ := @opened_inStep _ _ _ _ _ answers packets videoStreamIndex c state [] fresh
  rw [← all] at enough ⊢
  apply nextFrames_eq
  · exact inStep
  · rfl
  · exact enough

end FileTranscoding

/-- An encoder that makes a packet of one byte of every frame. -/
def oneByte : FrameEncoder where
  receive _ forceKeyframe := some ⟨[101], forceKeyframe⟩
  forced := by rintro _ _ ⟨⟩; rfl

/-- The second call has another profile, and begins another epoch with the frame that the first one would not have
taken. -/
theorem FileTranscoding.file_transcoded_late :
    FileTranscoding.nextFrames PacketCodec.oneLate.decoder 7
        [⟨{}, false, oneByte⟩, ⟨{ fps := 15 }, false, oneByte⟩, ⟨{ fps := 15 }, true, oneByte⟩]
        ⟨{ streamTimeBaseNum := 1, streamTimeBaseDen := 1000 }, FileDecoding.opened someFile 0 ⟨none, [], false⟩⟩ =
      some [⟨⟨some 0⟩, [101], 3000, 1, true⟩, ⟨⟨some 10⟩, [101], 6000, 2, true⟩] :=
  (FileTranscoding.file_transcoded PacketCodec.oneLate.answers _ someFile 0 ⟨none, [], false⟩ none rfl 7 (by decide)
    _).trans (by decide +kernel)

end WeakNetVideo
