import WeakNetVideo.Library.Loop
import WeakNetVideo.Model.VideoFileReader

/-! # Getting frames off the file

`next_decoded_frame` feeds the packets of the video stream to the decoder and returns what comes out. The decoder is
a parameter that answers as `avcodec_receive_frame` and `avcodec_send_packet` do, with result codes.
-/

namespace WeakNetVideo

/-- `AVERROR(EAGAIN)`. -/
def averrorEagain : ℤ := -11

/-- `AVERROR_EOF`. -/
def averrorEof : ℤ := -541478725

/-- The decoder with what it keeps. A frame counts when its code is `0`; `none` for a packet asks for a flush. -/
structure VideoDecoder (Context Packet : Type*) where
  receiveFrame : Context → Context × ℤ × DecodedFrame
  sendPacket : Context → Option Packet → Context × ℤ

/-- A packet that `av_read_frame` returns. -/
structure FilePacket (Packet : Type*) where
  streamIndex : ℤ
  data : Packet

/-- What `next_decoded_frame` throws, with the code that its text ends with if there is one. -/
inductive DecodingError where
  | receiveFrame (code : ℤ)
  | sendPacket (code : ℤ)
  | sendFlush (code : ℤ)
  | packetAlloc
deriving DecidableEq, Repr

/-- The text of the exception, with `ffmpeg_error` of the code. -/
def DecodingError.what (ffmpegError : ℤ → String) : DecodingError → String
  | receiveFrame code => "avcodec_receive_frame failed: " ++ ffmpegError code
  | sendPacket code => "avcodec_send_packet failed: " ++ ffmpegError code
  | sendFlush code => "avcodec_send_packet flush failed: " ++ ffmpegError code
  | packetAlloc => "av_packet_alloc failed"

/-- The members of `VideoFileReader` that get frames off the file, with the packets that `av_read_frame` still
returns, and whether the next calls of `av_packet_alloc` give a packet; those behind the list do. -/
structure FileDecoding (Context Packet : Type*) where
  formatContext : List (FilePacket Packet)
  videoStreamIndex : ℤ
  decoderContext : Context
  inputEof : Bool := false
  decoderFlushed : Bool := false
  packetAllocs : List Bool := []

/-- What a call of `next_decoded_frame` comes to: a frame, no frame or an exception. -/
abbrev Decoded := Except DecodingError (Option DecodedFrame)

namespace FileDecoding

variable {Context Packet : Type*}

/-- The packets of the other streams are read over. -/
def readFrame (videoStreamIndex : ℤ) : List (FilePacket Packet) → Option Packet × List (FilePacket Packet)
  | [] => (none, [])
  | packet :: packets =>
    if packet.streamIndex ≠ videoStreamIndex then readFrame videoStreamIndex packets else (some packet.data, packets)

/-- One turn of the loop of `next_decoded_frame`. -/
def turn (decoder : VideoDecoder Context Packet) (reader : FileDecoding Context Packet) :
    FileDecoding Context Packet × Option Decoded :=
  let (decoderContext, receiveResult, decodedFrame) := decoder.receiveFrame reader.decoderContext
  let reader := { reader with decoderContext := decoderContext }
  if receiveResult = 0 then (reader, some (.ok (some decodedFrame)))
  else if receiveResult = averrorEof then (reader, some (.ok none))
  else if receiveResult ≠ averrorEagain then (reader, some (.error (.receiveFrame receiveResult)))
  else if reader.inputEof then
    if !reader.decoderFlushed then
      let (decoderContext, flushResult) := decoder.sendPacket reader.decoderContext none
      let reader := { reader with decoderContext := decoderContext }
      if flushResult < 0 then (reader, some (.error (.sendFlush flushResult)))
      else ({ reader with decoderFlushed := true }, none)
    else (reader, some (.ok none))
  else
    let made := reader.packetAllocs.headD true
    let reader := { reader with packetAllocs := reader.packetAllocs.tail }
    if !made then (reader, some (.error .packetAlloc))
    else
      match readFrame reader.videoStreamIndex reader.formatContext with
      | (none, packets) => ({ reader with formatContext := packets, inputEof := true }, none)
      | (some packet, packets) =>
        let (decoderContext, sendResult) := decoder.sendPacket reader.decoderContext (some packet)
        let reader := { reader with formatContext := packets, decoderContext := decoderContext }
        -- A packet that the decoder does not take now is lost: it has been freed.
        if sendResult < 0 ∧ sendResult ≠ averrorEagain then (reader, some (.error (.sendPacket sendResult)))
        else (reader, none)

/-- Packets that are still to be read, the end of the file and the flush. -/
def turnsLeft (reader : FileDecoding Context Packet) : ℕ :=
  reader.formatContext.length + (if reader.inputEof then 0 else 1) + (if reader.decoderFlushed then 0 else 1)

theorem readFrame_length {videoStreamIndex : ℤ} {packets : List (FilePacket Packet)} {packet : Packet}
    (read : (readFrame videoStreamIndex packets).1 = some packet) :
    (readFrame videoStreamIndex packets).2.length < packets.length := by
  induction packets with
  | nil => exact absurd read (by simp [readFrame])
  | cons first packets ih =>
    rw [readFrame] at read ⊢
    split_ifs at read ⊢ with other
    · exact Nat.lt_succ_of_lt (ih read)
    · exact Nat.lt_succ_self _

theorem readFrame_none {videoStreamIndex : ℤ} {packets : List (FilePacket Packet)}
    (read : (readFrame videoStreamIndex packets).1 = none) : (readFrame videoStreamIndex packets).2 = [] := by
  induction packets with
  | nil => rfl
  | cons first packets ih =>
    rw [readFrame] at read ⊢
    split_ifs at read ⊢ with other
    exact ih read

theorem turn_lowers (decoder : VideoDecoder Context Packet) (reader : FileDecoding Context Packet)
    (goesOn : (reader.turn decoder).2 = none) : (reader.turn decoder).1.turnsLeft < reader.turnsLeft := by
  unfold turn at goesOn ⊢
  simp only at goesOn ⊢
  split_ifs at goesOn ⊢ with received ended failed atEnd unflushed refused unmade
  · have unflushed : reader.decoderFlushed = false := by simpa using unflushed
    simp only [turnsLeft, unflushed, if_true, Bool.false_eq_true, if_false]
    exact Nat.lt_succ_self _
  · cases read : readFrame reader.videoStreamIndex reader.formatContext with
    | mk packet packets =>
      cases packet with
      | none =>
        have nothing : packets = [] := by
          simpa only [read] using @readFrame_none _ reader.videoStreamIndex reader.formatContext (by rw [read])
        simp only [turnsLeft, nothing, atEnd, List.length_nil, if_true, Bool.false_eq_true, if_false]
        omega
      | some packet =>
        have fewer : packets.length < reader.formatContext.length := by
          simpa only [read] using
            @readFrame_length _ reader.videoStreamIndex reader.formatContext packet (by rw [read])
        simp only [read] at goesOn ⊢
        split_ifs at goesOn ⊢
        simp only [turnsLeft]
        omega

/-- The loop of `next_decoded_frame`. -/
def decodingLoop (decoder : VideoDecoder Context Packet) : Loop (FileDecoding Context Packet) Decoded where
  turn := turn decoder
  measure := turnsLeft
  lowers := turn_lowers decoder

/-- `next_decoded_frame`. -/
def nextDecodedFrame (decoder : VideoDecoder Context Packet) (reader : FileDecoding Context Packet) :
    FileDecoding Context Packet × Decoded :=
  (decodingLoop decoder).result reader

/-- What so many calls of `next_decoded_frame` come to. -/
def nextDecodedFrames (decoder : VideoDecoder Context Packet) : ℕ → FileDecoding Context Packet → List Decoded
  | 0, _ => []
  | calls + 1, reader =>
    (reader.nextDecodedFrame decoder).2 :: nextDecodedFrames decoder calls (reader.nextDecodedFrame decoder).1

/-- `open` and `reset`: the file from its start, with a decoder of its own. -/
def opened (packets : List (FilePacket Packet)) (videoStreamIndex : ℤ) (decoderContext : Context)
    (packetAllocs : List Bool := []) : FileDecoding Context Packet where
  formatContext := packets
  videoStreamIndex := videoStreamIndex
  decoderContext := decoderContext
  packetAllocs := packetAllocs

end FileDecoding

/-! ## The frames that go out -/

/-- A reader of a video file: what decides which frames go out, and where they come from. -/
structure FileTranscoding (Context Packet : Type*) where
  timing : TimedFileReader
  decoding : FileDecoding Context Packet

namespace FileTranscoding

variable {Context Packet : Type*}

/-- The loop of `next_frame` with a bound on its turns. -/
def transcodeLoop (decoder : VideoDecoder Context Packet) (encoder : FrameEncoder) (fps : ℤ) (forceKeyframe : Bool) :
    ℕ → FileTranscoding Context Packet →
    Option (FileTranscoding Context Packet × Except DecodingError (Option (DecodedFrame × EncodedPacket)))
  | 0, _ => none
  | turns + 1, reader =>
    match reader.decoding.nextDecodedFrame decoder with
    | (decoding, .error error) => some ({ reader with decoding := decoding }, .error error)
    | (decoding, .ok none) => some ({ reader with decoding := decoding }, .ok none)
    | (decoding, .ok (some decodedFrame)) =>
      match reader.timing.shouldOutputDecodedFrame decodedFrame fps with
      | (timing, false) => transcodeLoop decoder encoder fps forceKeyframe turns ⟨timing, decoding⟩
      | (timing, true) =>
        let later := { timing with encoderPts := timing.encoderPts + 1 }
        match encoder.receive timing.encoderPts forceKeyframe with
        | none => transcodeLoop decoder encoder fps forceKeyframe turns ⟨later, decoding⟩
        | some packet => some (⟨later, decoding⟩, .ok (some (decodedFrame, packet)))

/-- `next_frame`, with a bound on the turns of its loop. -/
def nextFrame (decoder : VideoDecoder Context Packet) (encoder : FrameEncoder) (turns : ℕ) (profile : VideoProfile)
    (forceKeyframe : Bool) (reader : FileTranscoding Context Packet) :
    Option (FileTranscoding Context Packet × Except DecodingError (Option Transcoded)) :=
  let forced := forceKeyframe || reader.timing.outdated profile
  (transcodeLoop decoder encoder profile.fps forced turns
    { reader with timing := reader.timing.configured profile }).map fun (after, made) =>
      (after, made.map fun made => made.map fun (source, packet) => {
        source := source
        frame := {
          data := packet.data
          duration90khz := UInt32.ofNat (max 1 (Int.tdiv 90000 profile.fps)).toNat
          epoch := after.timing.epoch
          keyframe := packet.key } })

/-- What some calls of `next_frame` return up to the end of the file or an exception; `none` when a call has not
returned within its turns. -/
def nextFrames (decoder : VideoDecoder Context Packet) (turns : ℕ) :
    List FrameRequest → FileTranscoding Context Packet → Option (List Transcoded)
  | [], _ => some []
  | request :: requests, reader =>
    match nextFrame decoder request.encoder turns request.profile request.forceKeyframe reader with
    | none => none
    | some (_, .error _) => some []
    | some (_, .ok none) => some []
    | some (after, .ok (some transcoded)) => (nextFrames decoder turns requests after).map (transcoded :: ·)

end FileTranscoding

end WeakNetVideo
