import WeakNetVideo.Library.Owning
import WeakNetVideo.Library.Transducer
import WeakNetVideo.Model.FileDecoding

/-! # The objects of the file reader

The reader keeps a demuxer, a decoder, an encoder, a scaler, two frames and now and then a packet, all objects of FFmpeg
that it makes and frees by hand, and any of their calls may fail and make it throw. Which frames go out is modelled
elsewhere; here are the calls on the objects, with the results that FFmpeg gives. A call of `next_frame` is cut at the
turns of its loops. The bytes of a frame are taken to fit into memory: a `std::bad_alloc` of `frame.data.resize` is not
modelled.
-/

namespace WeakNetVideo

/-- The pointers of `VideoFileReader`, and the local one to a packet. -/
inductive ReaderSlot where
  | formatContext
  | decoderContext
  | encoderContext
  | decodedFrame
  | scaledFrame
  | swsContext
  | packet
deriving DecidableEq, Repr

/-- The members of `VideoFileReader` that decide which calls are made. -/
structure ReaderMembers where
  inputEof : Bool := false
  decoderFlushed : Bool := false
  encoderConfigured : Bool := false
  encoderProfile : VideoProfile := {}
deriving DecidableEq, Repr

/-- The code of the reader, with the texts of its exceptions. -/
abbrev Reading := Owning ReaderSlot ReaderMembers String

/-- What the calls of `open` return: codes, and whether an object is found or made. -/
structure OpenReply where
  openInput : ℤ
  findStreamInfo : ℤ
  bestStream : ℤ
  decoderFound : Bool
  contextMade : Bool
  parameters : ℤ
  codecOpened : ℤ
  frameMade : Bool

/-- What the calls of `configure_encoder` return. -/
structure EncoderOpenReply where
  encoderFound : Bool
  contextMade : Bool
  codecOpened : ℤ
  frameMade : Bool
  buffer : ℤ

/-- What the calls of a turn of `next_decoded_frame` return; packets of other streams are read over. -/
structure DecodeReply where
  receiveResult : ℤ
  packetMade : Bool
  otherPackets : ℕ
  readResult : ℤ
  sendResult : ℤ

/-- What the calls of a turn of `next_frame` return. -/
structure TranscodeReply where
  due : Bool
  sameScaler : Bool
  scalerMade : Bool
  writable : ℤ
  sendResult : ℤ
  packetMade : Bool
  receiveResult : ℤ

namespace Reading

open Owning

/-- `check_ffmpeg`. -/
def checkFfmpeg (ffmpegError : ℤ → String) (result : ℤ) (operation : String) : Reading Unit :=
  throwIf (decide (result < 0)) (operation ++ " failed: " ++ ffmpegError result)

/-- `open`. -/
def openFile (ffmpegError : ℤ → String) (path : String) (reply : OpenReply) : Reading Unit := do
  allocate .formatContext (decide (0 ≤ reply.openInput))
    ("cannot open video file '" ++ path ++ "': " ++ ffmpegError reply.openInput)
  use .formatContext
  checkFfmpeg ffmpegError reply.findStreamInfo "avformat_find_stream_info"
  use .formatContext
  throwIf (decide (reply.bestStream < 0)) "video file has no video stream"
  use .formatContext
  throwIf (!reply.decoderFound) "input video decoder not found"
  allocate .decoderContext reply.contextMade "avcodec_alloc_context3 decoder failed"
  use .decoderContext
  use .formatContext
  checkFfmpeg ffmpegError reply.parameters "avcodec_parameters_to_context"
  use .decoderContext
  checkFfmpeg ffmpegError reply.codecOpened "avcodec_open2 decoder"
  allocate .decodedFrame reply.frameMade "av_frame_alloc decoder failed"
  setMember fun members => { members with inputEof := false, decoderFlushed := false }

/-- `close_encoder`. -/
def closeEncoder : Reading Unit := do
  free .scaledFrame
  free .encoderContext
  setMember fun members => { members with encoderConfigured := false }

/-- `close`. -/
def close : Reading Unit := do
  closeEncoder
  free .swsContext
  free .decodedFrame
  free .decoderContext
  free .formatContext
  setMember fun members => { members with inputEof := false, decoderFlushed := false }

/-- `configure_encoder`. -/
def configureEncoder (ffmpegError : ℤ → String) (profile : VideoProfile) (reply : EncoderOpenReply) :
    Reading Unit := do
  closeEncoder
  throwIf (!reply.encoderFound) "FFmpeg libx264 encoder not found"
  allocate .encoderContext reply.contextMade "avcodec_alloc_context3 encoder failed"
  use .encoderContext
  checkFfmpeg ffmpegError reply.codecOpened "avcodec_open2 encoder"
  allocate .scaledFrame reply.frameMade "av_frame_alloc encoder failed"
  use .scaledFrame
  checkFfmpeg ffmpegError reply.buffer "av_frame_get_buffer"
  setMember fun members => { members with encoderProfile := profile, encoderConfigured := true }

/-- The top of `next_frame`. -/
def prepare (ffmpegError : ℤ → String) (members : ReaderMembers) (profile : VideoProfile)
    (reply : EncoderOpenReply) : Reading Unit := do
  if !members.encoderConfigured ∨ members.encoderProfile ≠ profile then
    configureEncoder ffmpegError profile reply

/-- Packets of other streams. -/
def readOver : ℕ → Reading Unit
  | 0 => pure ()
  | others + 1 => do
    use .formatContext
    use .packet
    use .packet
    readOver others

/-- The flush at the end of the file. -/
def flush (ffmpegError : ℤ → String) (reply : DecodeReply) : Reading Unit := do
  use .decoderContext
  checkFfmpeg ffmpegError reply.sendResult "avcodec_send_packet flush"
  setMember fun members => { members with decoderFlushed := true }

/-- A packet of the video stream is read and sent to the decoder, or the file is at its end. -/
def feed (ffmpegError : ℤ → String) (reply : DecodeReply) : Reading Unit := do
  allocate .packet reply.packetMade "av_packet_alloc failed"
  readOver reply.otherPackets
  use .formatContext
  use .packet
  if reply.readResult < 0 then
    setMember fun members => { members with inputEof := true }
    free .packet
  else
    use .decoderContext
    use .packet
    free .packet
    throwIf (decide (reply.sendResult < 0 ∧ reply.sendResult ≠ averrorEagain))
      ("avcodec_send_packet failed: " ++ ffmpegError reply.sendResult)

/-- One turn of the loop of `next_decoded_frame`, with what it returns if it does. -/
def decodeTurn (ffmpegError : ℤ → String) (members : ReaderMembers) (reply : DecodeReply) :
    Reading (Option Bool) := do
  use .decodedFrame
  use .decoderContext
  use .decodedFrame
  if reply.receiveResult = 0 then return some true
  else if reply.receiveResult = averrorEof then return some false
  else
    throwIf (decide (reply.receiveResult ≠ averrorEagain))
      ("avcodec_receive_frame failed: " ++ ffmpegError reply.receiveResult)
    if members.inputEof then
      if members.decoderFlushed then return some false
      else
        flush ffmpegError reply
        return none
    else
      feed ffmpegError reply
      return none

/-- `sws_getCachedContext` and its test: the scaler there is, or another one in its place. -/
def getCachedContext (reply : TranscodeReply) : Reading Unit := do
  if (← holds .swsContext) && reply.sameScaler then
    use .swsContext
  else
    free .swsContext
    allocate .swsContext reply.scalerMade "sws_getCachedContext failed"

/-- The frame is scaled and sent to the encoder. -/
def encodeFrame (ffmpegError : ℤ → String) (reply : TranscodeReply) : Reading Unit := do
  use .decodedFrame
  getCachedContext reply
  use .scaledFrame
  checkFfmpeg ffmpegError reply.writable "av_frame_make_writable"
  use .swsContext
  use .decodedFrame
  use .scaledFrame
  use .decodedFrame
  use .encoderContext
  use .scaledFrame
  checkFfmpeg ffmpegError reply.sendResult "avcodec_send_frame"

/-- A packet is taken from the encoder, if it has one. -/
def receivePacket (ffmpegError : ℤ → String) (reply : TranscodeReply) : Reading Bool := do
  allocate .packet reply.packetMade "av_packet_alloc failed"
  use .encoderContext
  use .packet
  if reply.receiveResult = averrorEagain then
    free .packet
    return false
  else if reply.receiveResult < 0 then
    free .packet
    throw ("avcodec_receive_packet failed: " ++ ffmpegError reply.receiveResult)
  else
    use .packet
    free .packet
    return true

/-- A turn of the loop of `next_frame` with a decoded frame: whether it returns a packet. -/
def transcodeTurn (ffmpegError : ℤ → String) (reply : TranscodeReply) : Reading Bool := do
  if reply.due then
    encodeFrame ffmpegError reply
    receivePacket ffmpegError reply
  else
    use .decodedFrame
    return false

/-- One turn of the loops of `next_frame`, with what it returns if it does. -/
def loopTurn (ffmpegError : ℤ → String) (members : ReaderMembers) (decode : DecodeReply)
    (transcode : TranscodeReply) : Reading (Option Bool) := do
  match ← decodeTurn ffmpegError members decode with
  | some true =>
    let returned ← transcodeTurn ffmpegError transcode
    return if returned then some true else none
  | other => return other

end Reading

/-! ## The life of a reader -/

/-- Where a reader stands: not constructed, its constructor has thrown, no call, in the loops of `next_frame`, or
destroyed. -/
inductive ReaderStage where
  | absent
  | failed
  | idle
  | reading
  | destroyed
deriving DecidableEq, Repr

/-- A reader with its objects. `opened` says that its file was opened last without an exception. -/
structure FileReaderObjects where
  stage : ReaderStage := .absent
  opened : Bool := false
  objects : Holder ReaderSlot ReaderMembers := { member := {} }

/-- The calls on a reader, with what FFmpeg returns; `next_frame` begins, and goes on turn by turn. -/
inductive ReaderCall where
  | construct (reply : OpenReply)
  | nextFrame (profile : VideoProfile) (reply : EncoderOpenReply)
  | turn (decode : DecodeReply) (transcode : TranscodeReply)
  | reset (reply : OpenReply)
  | destroy

namespace FileReaderObjects

/-- A part of the code runs to its end or to an exception. -/
def perform {α : Type} (r : FileReaderObjects) (code : Reading α)
    (returned : α → FileReaderObjects → FileReaderObjects) (thrown : FileReaderObjects → FileReaderObjects) :
    FileReaderObjects × Option String :=
  match code.run.run r.objects with
  | (.ok result, objects) => (returned result { r with objects := objects }, none)
  | (.error what, objects) => (thrown { r with objects := objects }, some what)

/-- One step, with the text of the exception that leaves it. No destructor runs behind a constructor that throws. -/
def step (ffmpegError : ℤ → String) (path : String) (r : FileReaderObjects) :
    ReaderCall → FileReaderObjects × Option String
  | .construct reply =>
    if r.stage = .absent then
      r.perform (Reading.openFile ffmpegError path reply)
        (fun _ r => { r with stage := .idle, opened := true }) (fun r => { r with stage := .failed })
    else (r, none)
  | .nextFrame profile reply =>
    if r.stage = .idle then
      r.perform (Reading.prepare ffmpegError r.objects.member profile reply)
        (fun _ r => { r with stage := .reading }) id
    else (r, none)
  | .turn decode transcode =>
    if r.stage = .reading then
      r.perform (Reading.loopTurn ffmpegError r.objects.member decode transcode)
        (fun result r => if result.isSome then { r with stage := .idle } else r) (fun r => { r with stage := .idle })
    else (r, none)
  | .reset reply =>
    if r.stage = .idle then
      r.perform (do Reading.close; Reading.openFile ffmpegError path reply)
        (fun _ r => { r with opened := true }) (fun r => { r with opened := false })
    else (r, none)
  | .destroy =>
    if r.stage = .idle then
      r.perform Reading.close (fun _ r => { r with stage := .destroyed, opened := false }) id
    else (r, none)

end FileReaderObjects

/-- A caller asks only a reader with an open file for frames. -/
def FileReaderObjects.Admits (r : FileReaderObjects) : ReaderCall → Prop
  | .nextFrame _ _ => r.opened = true
  | _ => True

/-- The machine of a reader's objects. -/
def readerObjectsMachine (ffmpegError : ℤ → String) (path : String) :
    Transducer FileReaderObjects ReaderCall (Option String) :=
  ⟨FileReaderObjects.step ffmpegError path⟩

end WeakNetVideo
