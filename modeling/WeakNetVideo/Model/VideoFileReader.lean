import Mathlib.Data.Rat.Lemmas
import WeakNetVideo.Model.VideoSender

/-! # Reading the file in source time

`next_frame` takes decoded frames off the file until one is due and the encoder makes a packet of it. When a
frame is due is kept in seconds of the source, which are exact rationals here. What the decoder returns and what
the encoder makes of a frame are inputs.
-/

namespace WeakNetVideo

/-- A frame that the decoder returns; `none` is `AV_NOPTS_VALUE`. -/
structure DecodedFrame where
  bestEffortTimestamp : Option ℤ
deriving DecidableEq, Repr

/-- What the encoder makes of the frame with a `pts`, marked as an I picture or not; `none` is `EAGAIN`. It makes
a keyframe of every forced frame. -/
structure FrameEncoder where
  receive : ℤ → Bool → Option EncodedPacket
  forced : ∀ pts, ∀ made ∈ receive pts true, made.key = true

/-- An encoder that returns a packet for every frame at once. -/
structure PromptEncoder extends FrameEncoder where
  onePacket : ∀ pts forceKeyframe, (receive pts forceKeyframe).isSome

/-- What a call of `next_frame` is given, with the encoder as it is for that call. -/
structure FrameRequest where
  profile : VideoProfile
  forceKeyframe : Bool
  encoder : FrameEncoder

/-- The members of `VideoFileReader` that decide which frames go out. -/
structure TimedFileReader extends VideoFileReader where
  streamTimeBaseNum : ℤ := 0
  streamTimeBaseDen : ℤ := 1
  encoderPts : ℤ := 0
  nextOutputSourceSeconds : ℚ := -1
deriving DecidableEq, Repr

/-- A frame that `next_frame` returns, with the decoded frame that it was made of. -/
structure Transcoded where
  source : DecodedFrame
  frame : EncodedVideoFrame
deriving DecidableEq, Repr

namespace TimedFileReader

/-- `source_seconds`; a frame without a usable timestamp counts as the next one that is due. -/
def sourceSeconds (reader : TimedFileReader) (decodedFrame : DecodedFrame) : ℚ :=
  match decodedFrame.bestEffortTimestamp.filter fun _ => decide (reader.streamTimeBaseDen > 0) with
  | some bestEffortTimestamp =>
    (bestEffortTimestamp : ℚ) * (reader.streamTimeBaseNum : ℚ) / (reader.streamTimeBaseDen : ℚ)
  | none => if reader.nextOutputSourceSeconds ≥ 0 then reader.nextOutputSourceSeconds else 0

/-- The time that the next frame is due at; a negative one has not been set. -/
def dueSeconds (reader : TimedFileReader) (decodedFrame : DecodedFrame) : ℚ :=
  if reader.nextOutputSourceSeconds < 0 then reader.sourceSeconds decodedFrame else reader.nextOutputSourceSeconds

/-- `should_output_decoded_frame`. -/
def shouldOutputDecodedFrame (reader : TimedFileReader) (decodedFrame : DecodedFrame) (fps : ℤ) :
    TimedFileReader × Bool :=
  let due := reader.dueSeconds decodedFrame
  if reader.sourceSeconds decodedFrame + 1 / 10000 < due then ({ reader with nextOutputSourceSeconds := due }, false)
  else ({ reader with nextOutputSourceSeconds := due + 1 / (fps : ℚ) }, true)

/-- `configure_encoder`. -/
def configureTimed (reader : TimedFileReader) (profile : VideoProfile) : TimedFileReader :=
  { reader with
    toVideoFileReader := reader.toVideoFileReader.configureEncoder profile
    encoderPts := 0
    nextOutputSourceSeconds := -1 }

/-- The loop of `next_frame` over the frames that the decoder still returns. It leaves those behind the frame
that it encodes. -/
def transcodeNext (encoder : FrameEncoder) (fps : ℤ) (forceKeyframe : Bool) :
    TimedFileReader → List DecodedFrame → TimedFileReader × List DecodedFrame × Option (DecodedFrame × EncodedPacket)
  | reader, [] => (reader, [], none)
  | reader, decodedFrame :: frames =>
    match reader.shouldOutputDecodedFrame decodedFrame fps with
    | (reader, false) => transcodeNext encoder fps forceKeyframe reader frames
    | (reader, true) =>
      match encoder.receive reader.encoderPts forceKeyframe with
      | none => transcodeNext encoder fps forceKeyframe { reader with encoderPts := reader.encoderPts + 1 } frames
      | some packet => ({ reader with encoderPts := reader.encoderPts + 1 }, frames, some (decodedFrame, packet))

/-- The reader as `next_frame` has it in its loop, and whether the frame is forced there. -/
def configured (reader : TimedFileReader) (profile : VideoProfile) : TimedFileReader :=
  if reader.outdated profile then reader.configureTimed profile else reader

/-- `next_frame`. -/
def nextTimedFrame (reader : TimedFileReader) (encoder : FrameEncoder) (profile : VideoProfile)
    (forceKeyframe : Bool) (frames : List DecodedFrame) :
    TimedFileReader × List DecodedFrame × Option Transcoded :=
  let forced := forceKeyframe || reader.outdated profile
  let (after, rest, made) := transcodeNext encoder profile.fps forced (reader.configured profile) frames
  (after, rest, made.map fun (source, packet) => {
    source := source
    frame := {
      data := packet.data
      duration90khz := UInt32.ofNat (max 1 (Int.tdiv 90000 profile.fps)).toNat
      epoch := after.epoch
      keyframe := packet.key } })

/-- `reset`, which opens a file as the constructor does. -/
def resetTimed (reader : TimedFileReader) (timeBaseNum timeBaseDen : ℤ) : TimedFileReader :=
  { reader with
    toVideoFileReader := reader.toVideoFileReader.reset
    streamTimeBaseNum := timeBaseNum
    streamTimeBaseDen := timeBaseDen
    nextOutputSourceSeconds := -1 }

/-- The frames that calls of `next_frame` return up to the end of the file, one call for every element of a list
that says which are forced. -/
def nextTimedFrames (encoder : FrameEncoder) (profile : VideoProfile) :
    TimedFileReader → List DecodedFrame → List Bool → List Transcoded
  | _, _, [] => []
  | reader, frames, forceKeyframe :: forces =>
    match reader.nextTimedFrame encoder profile forceKeyframe frames with
    | (_, _, none) => []
    | (after, rest, some transcoded) => transcoded :: nextTimedFrames encoder profile after rest forces

/-- The frames that some calls of `next_frame` return up to the end of the file. -/
def nextRequestedFrames : TimedFileReader → List DecodedFrame → List FrameRequest → List Transcoded
  | _, _, [] => []
  | reader, frames, request :: requests =>
    match reader.nextTimedFrame request.encoder request.profile request.forceKeyframe frames with
    | (_, _, none) => []
    | (after, rest, some transcoded) => transcoded :: nextRequestedFrames after rest requests

/-- Calls with one profile and one encoder. -/
theorem nextTimedFrames_eq_nextRequestedFrames (encoder : FrameEncoder) (profile : VideoProfile)
    (reader : TimedFileReader) (frames : List DecodedFrame) (forces : List Bool) :
    nextTimedFrames encoder profile reader frames forces =
      reader.nextRequestedFrames frames (forces.map fun forceKeyframe => ⟨profile, forceKeyframe, encoder⟩) := by
  induction forces generalizing reader frames with
  | nil => rfl
  | cons forceKeyframe forces ih =>
    rw [nextTimedFrames, List.map_cons, nextRequestedFrames]
    split <;> simp_all only

/-! ## Time aside -/

theorem shouldOutputDecodedFrame_toVideoFileReader (reader : TimedFileReader) (decodedFrame : DecodedFrame) (fps : ℤ) :
    (reader.shouldOutputDecodedFrame decodedFrame fps).1.toVideoFileReader = reader.toVideoFileReader := by
  rw [shouldOutputDecodedFrame]
  split_ifs <;> rfl

variable {encoder : FrameEncoder} {fps : ℤ} {forceKeyframe : Bool} {reader : TimedFileReader}
  {frames : List DecodedFrame}

theorem transcodeNext_toVideoFileReader :
    (transcodeNext encoder fps forceKeyframe reader frames).1.toVideoFileReader = reader.toVideoFileReader := by
  induction frames generalizing reader with
  | nil => rfl
  | cons decodedFrame frames ih =>
    have same := shouldOutputDecodedFrame_toVideoFileReader reader decodedFrame fps
    rw [transcodeNext]
    split
    · rename_i after skipped
      rw [skipped] at same
      exact ih.trans same
    · rename_i after taken
      rw [taken] at same
      cases encoder.receive after.encoderPts forceKeyframe with
      | none => exact ih.trans same
      | some packet => exact same

theorem transcodeNext_forced :
    ∀ made ∈ (transcodeNext encoder fps true reader frames).2.2, made.2.key = true := by
  induction frames generalizing reader with
  | nil => exact fun made none => absurd none (by simp [transcodeNext])
  | cons decodedFrame frames ih =>
    rw [transcodeNext]
    split
    · exact ih
    · rename_i after taken
      cases made : encoder.receive after.encoderPts true with
      | none => exact ih
      | some packet =>
        rintro _ ⟨rfl⟩
        exact encoder.forced _ packet made

/-- What a call of `next_frame` gets from the libraries when the decoder still returns some frames. -/
def reply (reader : TimedFileReader) (encoder : FrameEncoder) (profile : VideoProfile) (frames : List DecodedFrame) :
    EncoderReply where
  packet forceKeyframe :=
    (transcodeNext encoder profile.fps forceKeyframe (reader.configured profile) frames).2.2.map Prod.snd
  forced := by
    rintro _ made
    obtain ⟨whole, there, rfl⟩ := Option.mem_map.mp made
    exact transcodeNext_forced whole there

theorem configured_toVideoFileReader (reader : TimedFileReader) (profile : VideoProfile) :
    (reader.configured profile).toVideoFileReader =
      if reader.outdated profile then reader.toVideoFileReader.configureEncoder profile
      else reader.toVideoFileReader := by
  rw [configured]
  split_ifs <;> rfl

/-- But for the time, `next_frame` is what the sending loop calls. -/
theorem nextTimedFrame_eq_nextFrame (reader : TimedFileReader) (encoder : FrameEncoder) (profile : VideoProfile)
    (forceKeyframe : Bool) (frames : List DecodedFrame) :
    reader.nextFrame (reader.reply encoder profile frames) profile forceKeyframe =
      ((reader.nextTimedFrame encoder profile forceKeyframe frames).1.toVideoFileReader,
        (reader.nextTimedFrame encoder profile forceKeyframe frames).2.2.map Transcoded.frame) := by
  have after := @transcodeNext_toVideoFileReader encoder profile.fps (forceKeyframe || reader.outdated profile)
    (reader.configured profile) frames
  rw [configured_toVideoFileReader] at after
  simp only [VideoFileReader.nextFrame, nextTimedFrame, reply, after, Option.map_map]
  rfl

end TimedFileReader

end WeakNetVideo
