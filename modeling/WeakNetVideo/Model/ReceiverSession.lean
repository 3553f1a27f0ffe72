import Mathlib.Data.Rat.Lemmas
import WeakNetVideo.Model.Rtx
import WeakNetVideo.Model.VideoReceiver

/-! # The receiving process and its figures

What comes in passes the handler that restores retransmissions, a session of the library and the transport handler
before it is decoded. Once a second another thread takes the figures that are printed. It reads them one after the
other, so they are of different moments; its turn is cut there. Bit rates are exact rationals.
-/

namespace WeakNetVideo

/-- `VideoReceiveStatsSnapshot`. -/
structure VideoReceiveStatsSnapshot where
  frames : ℕ := 0
  droppedFrames : ℕ := 0
  nackPackets : ℕ := 0
  retransmittedPackets : ℕ := 0
  pliPackets : ℕ := 0
  decoderErrors : ℕ := 0
  synchronized : Bool := false
  bitrateKbps : ℚ := 0
deriving DecidableEq, Repr

/-- The members of `VideoReceiveStats` beside those that a frame counts. -/
structure ReceiveFigures where
  droppedFrames : ℕ := 0
  nackPackets : ℕ := 0
  retransmittedPackets : ℕ := 0
  pliPackets : ℕ := 0
  synchronized : Bool := false
  bytesWindow : List (ℤ × ℕ) := []
deriving DecidableEq, Repr

/-- The rate of the frames in a window. -/
def windowKbps (window : List (ℤ × ℕ)) : ℚ :=
  match window.head?, window.getLast? with
  | some front, some back =>
    if window.length < 2 then 0
    else
      let seconds : ℚ := ((back.1 - front.1 : ℤ) : ℚ) / 1000000
      if 0 < seconds then ((window.map Prod.snd).sum * 8 : ℕ) / seconds / 1000 else 0
  | _, _ => 0

namespace ReceiveFigures

/-- The window part of `on_encoded_frame`. -/
def onEncodedFrame (figures : ReceiveFigures) (atUs : ℤ) (bytes : ℕ) : ReceiveFigures :=
  { figures with
    bytesWindow := (figures.bytesWindow ++ [(atUs, bytes)]).dropWhile fun item => decide (item.1 < atUs - 2000000) }

/-- `set_transport`. -/
def setTransport (figures : ReceiveFigures) (transport : VideoTransportStats) (retransmittedPackets : ℕ) :
    ReceiveFigures :=
  { figures with
    droppedFrames := transport.droppedFrames
    nackPackets := transport.nackPackets
    retransmittedPackets := retransmittedPackets
    pliPackets := transport.pliPackets
    synchronized := transport.synchronized }

/-- `VideoReceiveStats::snapshot`. -/
def snapshot (figures : ReceiveFigures) (stats : VideoReceiveStats) : VideoReceiveStatsSnapshot where
  frames := stats.frames
  droppedFrames := figures.droppedFrames
  nackPackets := figures.nackPackets
  retransmittedPackets := figures.retransmittedPackets
  pliPackets := figures.pliPackets
  decoderErrors := stats.decoderErrors
  synchronized := figures.synchronized
  bitrateKbps := windowKbps figures.bytesWindow

end ReceiveFigures

/-- Where a call of `VideoReceiver::snapshot` stands: the transport has been read, or the retransmissions too, or all
has been stored. -/
inductive SnapshotTurn where
  | top
  | transport (stats : VideoTransportStats)
  | retransmissions (stats : VideoTransportStats) (retransmittedPackets : ℕ)
  | stored
deriving DecidableEq, Repr

/-- The members of the receiving process that the figures are taken from. -/
structure ReceiverSession (C : Type*) where
  video : VideoReceiver C
  rtx : RtxReceivingHandler := .video
  figures : ReceiveFigures := {}
  turn : SnapshotTurn := .top

/-- What happens in the receiving process: a call with what comes in and the readings of the clock, a frame out of the
depacketizer, the turns of the recovery loop, and the parts of a snapshot. -/
inductive ReceiverSessionEvent where
  | incoming (messages : List MessagePtr) (clock : ℕ → ℤ) (drainUs pollUs : ℤ)
  | frame (atUs : ℤ)
  | poll (atUs : ℤ)
  | recordPliSent
  | readTransport
  | readRetransmissions
  | setTransport
  | readStats

/-- What a step shows: what comes into the chain, the frames that go to `onFrame`, the time and the size of one that
is decoded, what the transport sends back, how many requests are reported, and the figures. -/
structure ReceiverSessionShown where
  received : List MessagePtr := []
  passed : List FrameAssembly := []
  decoded : Option (ℤ × ℕ) := none
  sent : List Message := []
  requests : ℕ := 0
  snapshot : Option VideoReceiveStatsSnapshot := none

namespace ReceiverSession

variable {C : Type*} (rtc : Rtc) (codec : Codec C) (depacketize : FrameAssembly → List Byte)
  (session : List MessagePtr → List MessagePtr)

/-- `attach_track`. -/
def attachTrack (recoveryTimeoutMs : ℤ) (outputFile : Bool) (decoder : C) : ReceiverSession C where
  video := .attachTrack recoveryTimeoutMs outputFile decoder

/-- What comes in, through the chain. -/
def incoming (s : ReceiverSession C) (messages : List MessagePtr) (clock : ℕ → ℤ) (drainUs pollUs : ℤ) :
    ReceiverSession C × ReceiverSessionShown :=
  if s.video.ready.isEmpty then
    let (rtx, restored) := s.rtx.incoming rtc messages
    let batch : Batch := ⟨(session restored).mapIdx fun i message => (clock i, message), drainUs, pollUs⟩
    ({ s with
        rtx := rtx
        video := (s.video.step rtc codec depacketize (.incoming batch)).1 },
      { received := messages
        sent := (s.video.transport.receiverIncoming rtc batch).2.output.sent })
  else (s, {})

/-- The decoder renders a picture of the frame. -/
def decodes (v : VideoReceiver C) (frame : List Byte) : Bool :=
  (codec.decode (if v.resetDecoder then codec.reopen v.decoder else v.decoder) frame).2

/-- The callback of `onFrame`, with the reading for the window. -/
def frame (s : ReceiverSession C) (atUs : ℤ) : ReceiverSession C × ReceiverSessionShown :=
  match s.video.ready with
  | [] => (s, {})
  | next :: _ =>
    let (video, playback) := s.video.step rtc codec depacketize .frame
    let bytes := depacketize next
    if decodes codec s.video bytes then
      ({ s with video := video, figures := s.figures.onEncodedFrame atUs bytes.length },
        { passed := playback.passed, decoded := some (atUs, bytes.length) })
    else ({ s with video := video }, { passed := playback.passed })

/-- One step. -/
def step (s : ReceiverSession C) : ReceiverSessionEvent → ReceiverSession C × ReceiverSessionShown
  | .incoming messages clock drainUs pollUs => s.incoming rtc codec depacketize session messages clock drainUs pollUs
  | .frame atUs => s.frame rtc codec depacketize atUs
  | .poll atUs =>
    ({ s with video := (s.video.step rtc codec depacketize (.poll atUs)).1 },
      { sent := (s.video.transport.poll atUs).2.sent })
  | .recordPliSent => ({ s with video := (s.video.step rtc codec depacketize .recordPliSent).1 }, { requests := 1 })
  | .readTransport =>
    match s.turn with
    | .top => ({ s with turn := .transport s.video.transport.stats }, {})
    | _ => (s, {})
  | .readRetransmissions =>
    match s.turn with
    | .transport stats => ({ s with turn := .retransmissions stats s.rtx.retransmittedPackets }, {})
    | _ => (s, {})
  | .setTransport =>
    match s.turn with
    | .retransmissions stats retransmittedPackets =>
      ({ s with turn := .stored, figures := s.figures.setTransport stats retransmittedPackets }, {})
    | _ => (s, {})
  | .readStats =>
    match s.turn with
    | .stored => ({ s with turn := .top }, { snapshot := some (s.figures.snapshot s.video.stats) })
    | _ => (s, {})

end ReceiverSession

/-- The machine of the receiving process. `session` is what the receiving session of the library passes on. -/
def receiverSessionMachine {C : Type*} (rtc : Rtc) (codec : Codec C) (depacketize : FrameAssembly → List Byte)
    (session : List MessagePtr → List MessagePtr) :
    Transducer (ReceiverSession C) ReceiverSessionEvent ReceiverSessionShown :=
  ⟨ReceiverSession.step rtc codec depacketize session⟩

end WeakNetVideo
