import WeakNetVideo.Model.Adaptation
import WeakNetVideo.Model.Sender

/-! # The video sender

The sending loop takes the force flag, has the file reader encode the next frame and sends it. It runs
beside the profile updates and the callbacks of the transport, which store to its flags at any time; its
turn is therefore cut at the places where it lets go of the lock. What the file holds and what the encoder
makes of it are inputs.
-/

namespace WeakNetVideo

/-! ## Reading and encoding the file -/

/-- A packet that comes out of the encoder, and its `AV_PKT_FLAG_KEY`. -/
structure EncodedPacket where
  data : List Byte
  key : Bool
deriving DecidableEq, Repr

/-- What a call of `next_frame` gets from the codec libraries, as the frames are marked as I pictures or
not: a packet, or the end of the file. The encoder makes a keyframe of every forced frame. -/
structure EncoderReply where
  packet : Bool → Option EncodedPacket
  forced : ∀ made ∈ packet true, made.key = true

structure EncodedVideoFrame where
  data : List Byte
  duration90khz : UInt32 := 3000
  epoch : UInt16 := 1
  keyframe : Bool := false
deriving DecidableEq, Repr

/-- The members of `VideoFileReader` that decide how a frame is encoded. -/
structure VideoFileReader where
  encoderConfigured : Bool := false
  encoderProfile : VideoProfile := {}
  epoch : UInt16 := 0
deriving DecidableEq, Repr

namespace VideoFileReader

/-- `configure_encoder`; an epoch is never zero. -/
def configureEncoder (reader : VideoFileReader) (profile : VideoProfile) : VideoFileReader where
  encoderConfigured := true
  encoderProfile := profile
  epoch := if reader.epoch + 1 = 0 then 1 else reader.epoch + 1

/-- The encoder has to be configured before the next frame. -/
def outdated (reader : VideoFileReader) (profile : VideoProfile) : Bool :=
  !reader.encoderConfigured || decide (reader.encoderProfile ≠ profile)

/-- `next_frame`. -/
def nextFrame (reader : VideoFileReader) (reply : EncoderReply) (profile : VideoProfile)
    (forceKeyframe : Bool) : VideoFileReader × Option EncodedVideoFrame :=
  let configured := if reader.outdated profile then reader.configureEncoder profile else reader
  let force := forceKeyframe || reader.outdated profile
  (configured, (reply.packet force).map fun packet => {
    data := packet.data
    duration90khz := UInt32.ofNat (max 1 (Int.tdiv 90000 profile.fps)).toNat
    epoch := configured.epoch
    keyframe := packet.key })

/-- `reset` closes the encoder too. -/
def reset (reader : VideoFileReader) : VideoFileReader :=
  { reader with encoderConfigured := false }

end VideoFileReader

/-! ## The loop -/

/-- Where the sending loop stands: at its top, past the tests of a turn, past the force decision, or with
a frame to send. -/
inductive SendTurn where
  | top
  | admitted (profile : VideoProfile) (atUs : ℤ)
  | decided (profile : VideoProfile) (atUs : ℤ) (forceKeyframe : Bool)
  | encoded (frame : EncodedVideoFrame) (atUs : ℤ)
deriving DecidableEq, Repr

/-- The members of `VideoSender` that its loop uses; the track has been set. -/
structure VideoSender where
  profile : VideoProfile := {}
  fileReader : Option VideoFileReader := some {}
  transport : Sender := {}
  flags : RecoveryFlags := {}
  trackOpen : Bool := false
  stopping : Bool := false
  timestamp : UInt32 := 1
  frameIndex : ℕ := 0
  lastRecoveryFrameUs : ℤ := 0
  turn : SendTurn := .top
deriving DecidableEq, Repr

/-- How `sendFrame` ends: the frame goes out, or an exception is thrown before or behind the transport
handler. -/
inductive SendOutcome where
  | sent
  | threwBefore
  | threwBehind
deriving DecidableEq, Repr

/-- The stores of other threads, and the parts of a turn of the loop. -/
inductive VideoSenderEvent where
  | updateProfile (profile : VideoProfile)
  | storeRecoveryMode (recoveryMode : Bool)
  | raiseForceKeyframe
  | trackOpened
  | trackClosed
  | stop
  | beginTurn (atUs : ℤ)
  | exchange
  | encode (reply : EncoderReply)
  | send (outcome : SendOutcome) (messages : List MessagePtr)

/-- What a step shows: a force decision, or a call of `send_frame` with its result and what the packets
became. -/
inductive SenderShown where
  | nothing
  | decision (forceKeyframe : Bool)
  | attempt (frame : EncodedVideoFrame) (timestamp : UInt32) (sent : Bool) (packets : List MessagePtr)
deriving DecidableEq

/-- The stores of the `on_keyframe_requested` and the `on_keyframe_acknowledged` callback. -/
def keyframeRequestedStores : List VideoSenderEvent := [.storeRecoveryMode true, .raiseForceKeyframe]
def keyframeAcknowledgedStores : List VideoSenderEvent := [.storeRecoveryMode false]

namespace VideoSender

/-- The sender when its loop starts, with or without an input file. -/
def start (inputFile : Bool) : VideoSender where
  fileReader := if inputFile then some {} else none

/-- `update_profile`, which waits while a frame is encoded. -/
def updateProfile (s : VideoSender) (profile : VideoProfile) : VideoSender :=
  match s.turn with
  | .decided .. => s
  | _ =>
    { s with
      flags := { s.flags with forceKeyframe := s.flags.forceKeyframe || decide (s.profile ≠ profile) }
      profile := profile }

/-- The top of the loop: the track is open, and in recovery mode a frame is due. -/
def beginTurn (s : VideoSender) (atUs : ℤ) : VideoSender :=
  match s.turn with
  | .top =>
    if s.stopping ∨ !s.trackOpen then s
    else if s.flags.recoveryMode ∧ s.lastRecoveryFrameUs ≠ 0 ∧ atUs - s.lastRecoveryFrameUs < 250000 then s
    else { s with turn := .admitted s.profile atUs }
  | _ => s

/-- The exchange on the force flag. -/
def exchange (s : VideoSender) : VideoSender × SenderShown :=
  match s.turn with
  | .admitted profile atUs =>
    if s.fileReader.isNone then ({ s with stopping := true, turn := .top }, .nothing)
    else
      let forceKeyframe := s.flags.forceKeyframe || s.flags.recoveryMode
      ({ s with
          flags := { s.flags with forceKeyframe := false }
          turn := .decided profile atUs forceKeyframe }, .decision forceKeyframe)
  | _ => (s, .nothing)

/-- The call of `next_frame`; at the end of the file the reader starts again. -/
def encode (s : VideoSender) (reply : EncoderReply) : VideoSender :=
  match s.turn, s.fileReader with
  | .decided profile atUs forceKeyframe, some fileReader =>
    match fileReader.nextFrame reply profile forceKeyframe with
    | (reader, none) =>
      { s with
        fileReader := some reader.reset
        flags := { s.flags with forceKeyframe := true }
        turn := .top }
    | (reader, some frame) => { s with fileReader := some reader, turn := .encoded frame atUs }
  | _, _ => s

/-- `set_outgoing_frame` and `send_frame`. -/
def send (rtc : Rtc) (s : VideoSender) (outcome : SendOutcome) (messages : List MessagePtr) :
    VideoSender × SenderShown :=
  match s.turn with
  | .encoded frame atUs =>
    let outgoing := s.transport.setOutgoingFrame frame.epoch frame.keyframe
    let (transport, packets) :=
      if outcome = .threwBefore then (outgoing, []) else outgoing.senderOutgoing rtc messages
    let s := { s with transport := transport, turn := .top }
    if outcome = .sent then
      ({ s with
          frameIndex := s.frameIndex + 1
          lastRecoveryFrameUs := if s.flags.recoveryMode then atUs else s.lastRecoveryFrameUs
          timestamp := s.timestamp + frame.duration90khz },
        .attempt frame s.timestamp true packets)
    else (s, .attempt frame s.timestamp false packets)
  | _ => (s, .nothing)

def step (rtc : Rtc) (s : VideoSender) : VideoSenderEvent → VideoSender × SenderShown
  | .updateProfile profile => (s.updateProfile profile, .nothing)
  | .storeRecoveryMode recoveryMode =>
    ({ s with flags := { s.flags with recoveryMode := recoveryMode } }, .nothing)
  | .raiseForceKeyframe => ({ s with flags := { s.flags with forceKeyframe := true } }, .nothing)
  | .trackOpened => ({ s with trackOpen := true }, .nothing)
  | .trackClosed => ({ s with trackOpen := false, stopping := true }, .nothing)
  | .stop => ({ s with stopping := true }, .nothing)
  | .beginTurn atUs => (s.beginTurn atUs, .nothing)
  | .exchange => s.exchange
  | .encode reply => (s.encode reply, .nothing)
  | .send outcome messages => s.send rtc outcome messages

end VideoSender

/-- The machine of the sending loop and the stores beside it. -/
def videoSenderMachine (rtc : Rtc) : Transducer VideoSender VideoSenderEvent SenderShown :=
  ⟨VideoSender.step rtc⟩

/-- The stores of a callback come to what the callback does. -/
theorem flags_keyframeRequestedStores (rtc : Rtc) (s : VideoSender) :
    ((videoSenderMachine rtc).final s keyframeRequestedStores).flags = s.flags.keyframeRequested := rfl

theorem flags_keyframeAcknowledgedStores (rtc : Rtc) (s : VideoSender) :
    ((videoSenderMachine rtc).final s keyframeAcknowledgedStores).flags = s.flags.keyframeAcknowledged := rfl

end WeakNetVideo
