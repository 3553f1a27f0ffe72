import WeakNetVideo.Model.ReceiverEvents

/-! # The video receiver

The frames that the transport handler hands on go through the depacketizer and come back one by one. Each
is decoded and written to the output file. The decoder is opened anew before the next frame when the
transport has found a keyframe to go on from, or when a frame could not be decoded; then the transport is
told to wait for a keyframe, while frames of the same call may still be on their way.
-/

namespace WeakNetVideo

/-! ## Frames of an elementary stream -/

/-- The place of the NAL header when a start code of three or four bytes stands at `i`. -/
def nalHeaderAt (frame : List Byte) (i : ℕ) : Option ℕ :=
  if frame.getD i 0 = 0 ∧ frame.getD (i + 1) 0 = 0 ∧ frame.getD (i + 2) 0 = 1 then some (i + 3)
  else if i + 5 < frame.length ∧ frame.getD i 0 = 0 ∧ frame.getD (i + 1) 0 = 0 ∧
      frame.getD (i + 2) 0 = 0 ∧ frame.getD (i + 3) 0 = 1 then some (i + 4)
  else none

/-- `contains_h264_idr`. -/
def containsH264Idr (frame : List Byte) : Bool :=
  (List.range (frame.length - 4)).any fun i =>
    (nalHeaderAt frame i).any fun header => frame.getD header 0 &&& 0x1f = 5

/-! ## Decoding -/

/-- What the decoder looks at in a picture that comes out of the codec. -/
structure DecodedPicture where
  flaggedCorrupt : Bool := false
  decodeErrorFlags : ℕ := 0
deriving DecidableEq, Repr

/-- The codec library, with the state of its context and of whatever else decides how its calls end:
`close` followed by `open`, the allocation of a packet, `avcodec_send_packet`, and the pictures that
`avcodec_receive_frame` returns before it fails. -/
structure Codec (C : Type*) where
  reopen : C → C
  newPacket : C → ℕ → C × Bool
  sendPacket : C → List Byte → C × ℤ
  receiveFrames : C → C × List DecodedPicture

variable {C : Type*}

/-- `H264Decoder::decode`: a picture has been rendered. -/
def Codec.decode (codec : Codec C) (context : C) (frame : List Byte) : C × Bool :=
  let (allocated, packet) := codec.newPacket context frame.length
  if !packet then (allocated, false)
  else
    let (sent, sendResult) := codec.sendPacket allocated frame
    if sendResult < 0 then (sent, false)
    else
      let (received, pictures) := codec.receiveFrames sent
      (received, pictures.any fun picture => !(picture.flaggedCorrupt || picture.decodeErrorFlags ≠ 0))

/-- A decoder that was just reset renders nothing from a frame without a keyframe. -/
def Codec.StartsWithKeyframe (codec : Codec C) : Prop :=
  ∀ context frame, containsH264Idr frame = false → (codec.decode (codec.reopen context) frame).2 = false

/-! ## Frames on their way -/

/-- The counters of `VideoReceiveStats` that a frame changes. -/
structure VideoReceiveStats where
  frames : ℕ := 0
  decoderErrors : ℕ := 0
deriving DecidableEq, Repr

/-- The members of `VideoReceiver` that its frames go through. `output` is what the output file holds,
when one is open; `ready` are the frames of the current call that are not through yet. -/
structure VideoReceiver (C : Type*) where
  transport : Receiver
  decoder : C
  resetDecoder : Bool := true
  outputStarted : Bool := false
  output : Option (List Byte) := none
  stats : VideoReceiveStats := {}
  ready : List FrameAssembly := []

/-- What a step passes to `onFrame`, and what it writes. -/
structure Playback where
  passed : List FrameAssembly := []
  written : List FrameAssembly := []

/-- A call of the transport chain, a frame that comes out of the depacketizer, and the turns of the
recovery loop. -/
inductive VideoReceiverEvent where
  | incoming (batch : Batch)
  | frame
  | poll (atUs : ℤ)
  | recordPliSent

namespace VideoReceiver

/-- `attach_track`, with or without an output file. -/
def attachTrack (recoveryTimeoutMs : ℤ) (outputFile : Bool) (decoder : C) : VideoReceiver C where
  transport := .new recoveryTimeoutMs
  decoder := decoder
  output := if outputFile then some [] else none

/-- The callback of `onFrame`; the second part says whether the frame is written. -/
def onFrame (codec : Codec C) (v : VideoReceiver C) (frame : List Byte) : VideoReceiver C × Bool :=
  let keyframe := containsH264Idr frame
  let (decoder, rendered) :=
    codec.decode (if v.resetDecoder then codec.reopen v.decoder else v.decoder) frame
  if !rendered then
    ({ v with
        decoder := decoder
        transport := v.transport.invalidateSync
        resetDecoder := true
        stats := { v.stats with decoderErrors := v.stats.decoderErrors + 1 } }, false)
  else
    let outputStarted := v.outputStarted || keyframe
    ({ v with
        decoder := decoder
        resetDecoder := false
        outputStarted := outputStarted
        output := if outputStarted then v.output.map (· ++ frame) else v.output
        stats := { v.stats with frames := v.stats.frames + 1 } }, v.output.isSome && outputStarted)

/-- One step. A call is over when all its frames are through, and the next one comes behind it; the
recovery loop runs at any time. -/
def step (rtc : Rtc) (codec : Codec C) (depacketize : FrameAssembly → List Byte) (v : VideoReceiver C) :
    VideoReceiverEvent → VideoReceiver C × Playback
  | .incoming batch =>
    if v.ready.isEmpty then
      let (transport, delivery) := v.transport.receiverIncoming rtc batch
      ({ v with
          transport := transport
          resetDecoder := v.resetDecoder || decide (0 < delivery.output.syncRestored)
          ready := delivery.output.frames }, {})
    else (v, {})
  | .frame =>
    match v.ready with
    | [] => (v, {})
    | frame :: ready =>
      let (shown, wrote) := v.onFrame codec (depacketize frame)
      ({ shown with ready := ready },
        { passed := [frame], written := if wrote then [frame] else [] })
  | .poll atUs => ({ v with transport := (v.transport.poll atUs).1 }, {})
  | .recordPliSent => ({ v with transport := v.transport.recordPliSent }, {})

end VideoReceiver

/-- The machine of the video receiver. `depacketize` makes one frame of the packets of an assembly. -/
def videoReceiverMachine (rtc : Rtc) (codec : Codec C) (depacketize : FrameAssembly → List Byte) :
    Transducer (VideoReceiver C) VideoReceiverEvent Playback :=
  ⟨VideoReceiver.step rtc codec depacketize⟩

end WeakNetVideo
