import WeakNetVideo.Model.FrameMetadata
import WeakNetVideo.Model.Rtcp
import WeakNetVideo.Library.OrderedMap

/-! # The receiving transport handler

Packets are collected by frame id until a frame has all of them. While synchronized the handler
hands on complete frames in id order; when a frame is lost it waits for a complete keyframe. The
readings of the clock are inputs: one for each packet, one for each drain and one for each poll.
-/

namespace WeakNetVideo

/-- `kNackDelayUs`, `kNackRetryUs` and `kMaxBufferedFrames`. -/
def nackDelayUs : ℤ := 120000
def nackRetryUs : ℤ := 50000
def maxBufferedFrames : ℕ := 64

structure VideoTransportStats where
  completeFrames : ℕ := 0
  droppedFrames : ℕ := 0
  nackPackets : ℕ := 0
  retransmittedPackets : ℕ := 0
  pliPackets : ℕ := 0
  synchronized : Bool := false
deriving DecidableEq, Repr

structure FrameAssembly where
  epoch : UInt16 := 0
  frameId : UInt32 := 0
  packetCount : UInt16 := 0
  firstSequence : UInt16 := 0
  keyframe : Bool := false
  markerSeen : Bool := false
  firstSeenUs : ℤ := 0
  lastNackUs : ℤ := 0
  packets : List MessagePtr := []
deriving DecidableEq, Repr

def FrameAssembly.complete (frame : FrameAssembly) : Bool :=
  if frame.packetCount = 0 ∨ frame.packets.length ≠ frame.packetCount.toNat then false
  else frame.packets.all Option.isSome

/-- The frames under reassembly, in the order of their ids. -/
abbrev FrameMap := OrderedMap UInt32 FrameAssembly

/-- What a call hands on, sends back and signals. -/
structure Output where
  frames : List FrameAssembly := []
  sent : List Message := []
  syncRestored : ℕ := 0

/-- The fields of `VideoTransportHandler` that a receiver uses. `receiverSend` says whether the
callback to send feedback with has been set. -/
structure Receiver where
  recoveryTimeoutUs : ℤ
  receiverEpoch : Option UInt16 := none
  nextOutputFrameId : Option UInt32 := none
  frames : FrameMap := ∅
  receiverSend : Bool := false
  stats : VideoTransportStats := {}

namespace Receiver

/-- The constructor, in the direction of a receiver. -/
def new (recoveryTimeoutMs : ℤ) : Receiver where
  recoveryTimeoutUs := max 100 recoveryTimeoutMs * 1000

def markUnsynchronized (r : Receiver) : Receiver :=
  { r with stats := { r.stats with synchronized := false } }

def invalidateSync (r : Receiver) : Receiver :=
  markUnsynchronized { r with frames := ∅, nextOutputFrameId := none }

def recordPliSent (r : Receiver) : Receiver :=
  { r with stats := { r.stats with pliPackets := r.stats.pliPackets + 1 } }

def needsKeyframe (r : Receiver) : Bool := !r.stats.synchronized

/-! ## Storing a packet -/

/-- An unknown or different epoch clears the buffer; an unset cursor starts at the packet's frame. -/
def adoptEpoch (r : Receiver) (metadata : FrameMetadata) : Receiver :=
  let r :=
    if r.receiverEpoch = some metadata.epoch then r
    else markUnsynchronized { r with
      frames := ∅
      receiverEpoch := some metadata.epoch
      nextOutputFrameId := some metadata.frameId }
  if r.nextOutputFrameId.isNone then { r with nextOutputFrameId := some metadata.frameId } else r

/-- What is put in the place of a frame that was skipped. -/
def placeholder (atUs : ℤ) (epoch : UInt16) (missing : UInt32) : FrameAssembly where
  epoch := epoch
  frameId := missing
  firstSeenUs := atUs

/-- `try_emplace` for so many ids from `missing` on, while the buffer has room. -/
def fillGap (atUs : ℤ) (epoch : UInt16) : ℕ → UInt32 → FrameMap → FrameMap
  | 0, _, frames => frames
  | count + 1, missing, frames =>
    if frames.size < maxBufferedFrames then
      fillGap atUs epoch count (missing + 1)
        (frames.insertIfNew missing (placeholder atUs epoch missing))
    else frames

/-- Placeholders from the cursor up to a frame beyond it. -/
def withPlaceholders (r : Receiver) (atUs : ℤ) (metadata : FrameMetadata) : Receiver :=
  match r.nextOutputFrameId with
  | none => r
  | some next =>
    if next < metadata.frameId then
      { r with
        frames := fillGap atUs metadata.epoch (metadata.frameId - next).toNat next r.frames }
    else r

/-- `packets.resize(count)`. -/
def resize (packets : List MessagePtr) (count : ℕ) : List MessagePtr :=
  packets.take count ++ List.replicate (count - packets.length) none

/-- An assembly that was never seen takes its data from the first packet. -/
def openAssembly (atUs : ℤ) (metadata : FrameMetadata) (message : Message)
    (frame : FrameAssembly) : FrameAssembly :=
  if frame.firstSeenUs = 0 then
    { frame with
      epoch := metadata.epoch
      frameId := metadata.frameId
      packetCount := metadata.packetCount
      keyframe := metadata.keyframe
      firstSeenUs := atUs
      packets := resize frame.packets metadata.packetCount.toNat
      firstSequence := Rtp.seqNumber message.bytes - metadata.packetIndex }
  else frame

/-- The slot of the packet is filled once; the marker is remembered. -/
def fillSlot (metadata : FrameMetadata) (message : Message) (frame : FrameAssembly) : FrameAssembly :=
  { frame with
    packets :=
      if (frame.packets.getD metadata.packetIndex.toNat none).isSome then frame.packets
      else frame.packets.set metadata.packetIndex.toNat (some message)
    markerSeen := frame.markerSeen || Rtp.marker message.bytes }

/-- The loop that erases `frames_.begin()` while there are too many frames. -/
def evict : ℕ → Receiver → Receiver
  | 0, r => r
  | fuel + 1, r =>
    if r.frames.size > maxBufferedFrames then
      evict fuel (markUnsynchronized { r with frames := OrderedMap.eraseFirst r.frames })
    else r

/-- The packet goes into its assembly, which is dropped when the packet contradicts it. -/
def storePacket (r : Receiver) (atUs : ℤ) (metadata : FrameMetadata) (message : Message) : Receiver :=
  let frame := openAssembly atUs metadata message (r.frames[metadata.frameId]?.getD {})
  if frame.packetCount ≠ metadata.packetCount ∨ frame.epoch ≠ metadata.epoch ∨
      frame.keyframe ≠ metadata.keyframe then
    markUnsynchronized { r with frames := r.frames.erase metadata.frameId }
  else
    let stored :=
      { r with frames := r.frames.insert metadata.frameId (fillSlot metadata message frame) }
    evict stored.frames.size stored

/-- The metadata a packet is processed under; other packets only cost the synchronization. -/
def validMetadata (rtc : Rtc) (message : Message) : Option FrameMetadata :=
  (readFrameMetadata rtc message).filter fun metadata =>
    metadata.packetCount ≠ 0 && metadata.packetIndex < metadata.packetCount

def processReceiverPacket (rtc : Rtc) (r : Receiver) (atUs : ℤ) (message : Message) : Receiver :=
  match validMetadata rtc message with
  | none => r.markUnsynchronized
  | some metadata =>
    ((r.adoptEpoch metadata).withPlaceholders atUs metadata).storePacket atUs metadata message

/-! ## Handing on complete frames -/

/-- While unsynchronized: the entries in id order, up to the first complete keyframe, which goes out
and takes every entry up to its own with it. Complete delta frames and overdue frames on the way
are dropped. -/
def resync (atUs : ℤ) : List (UInt32 × FrameAssembly) → Receiver → Receiver × Output
  | [], r => (r, {})
  | (id, frame) :: rest, r =>
    if frame.complete && frame.keyframe then
      ({ r with
          frames := OrderedMap.eraseThrough r.frames id
          nextOutputFrameId := some (frame.frameId + 1)
          stats := { r.stats with
            completeFrames := r.stats.completeFrames + 1
            synchronized := true } },
        { frames := [frame], sent := [keyframeAck frame.epoch frame.frameId], syncRestored := 1 })
    else if frame.complete ∨ atUs - frame.firstSeenUs ≥ r.recoveryTimeoutUs then
      resync atUs rest { r with
        frames := r.frames.erase id
        stats := { r.stats with droppedFrames := r.stats.droppedFrames + 1 } }
    else resync atUs rest r

/-- While synchronized: frames in turn from the cursor on. Every turn that goes on erases an entry,
so the size of the buffer is fuel enough. -/
def drainInOrder (atUs : ℤ) : ℕ → Receiver → Receiver × Output
  | 0, r => (r, {})
  | fuel + 1, r =>
    match r.nextOutputFrameId with
    | none => (r, {})
    | some next =>
      match r.frames[next]? with
      | none => (r, {})
      | some frame =>
        if frame.complete then
          let (last, output) := drainInOrder atUs fuel { r with
            frames := r.frames.erase next
            nextOutputFrameId := some (next + 1)
            stats := { r.stats with completeFrames := r.stats.completeFrames + 1 } }
          (last, { output with frames := frame :: output.frames })
        else if atUs - frame.firstSeenUs ≥ r.recoveryTimeoutUs then
          (markUnsynchronized { r with
            frames := r.frames.erase next
            nextOutputFrameId := some (next + 1)
            stats := { r.stats with droppedFrames := r.stats.droppedFrames + 1 } }, {})
        else (r, {})

def drainCompleteFrames (r : Receiver) (atUs : ℤ) : Receiver × Output :=
  if r.stats.synchronized then drainInOrder atUs r.frames.size r
  else resync atUs r.frames.toList r

/-! ## Asking for missing packets -/

/-- The sequence numbers of the empty slots. -/
def missingSequences (frame : FrameAssembly) : List UInt16 :=
  ((List.range frame.packetCount.toNat).filter fun i => (frame.packets.getD i none).isNone).map
    fun i => frame.firstSequence + UInt16.ofNat i

def sendNack (frame : FrameAssembly) : Option Message :=
  let missing := missingSequences frame
  if missing.isEmpty then none else some (nackMessage (nackGroups missing))

/-- A NACK is due for a frame that has ended or is late, was not asked for just now and is not
given up. -/
def nackDue (r : Receiver) (atUs : ℤ) (frame : FrameAssembly) : Bool :=
  (frame.markerSeen || atUs - frame.firstSeenUs ≥ nackDelayUs) &&
    (frame.lastNackUs = 0 || atUs - frame.lastNackUs ≥ nackRetryUs) &&
    atUs - frame.firstSeenUs < r.recoveryTimeoutUs

/-- One turn of the poll over the buffered frames. -/
def pollFrame (atUs : ℤ) (r : Receiver) (entry : UInt32 × FrameAssembly) : Receiver × Option Message :=
  let (id, frame) := entry
  if frame.packetCount = 0 ∨ frame.complete then (r, none)
  else if r.nackDue atUs frame then
    ({ r with
        frames := r.frames.insert id { frame with lastNackUs := atUs }
        stats := { r.stats with
          nackPackets := r.stats.nackPackets + (if (sendNack frame).isSome then 1 else 0) } },
      sendNack frame)
  else (r, none)

def pollFrames (atUs : ℤ) : List (UInt32 × FrameAssembly) → Receiver → Receiver × List Message
  | [], r => (r, [])
  | entry :: rest, r =>
    let (polled, nack) := r.pollFrame atUs entry
    let (last, nacks) := pollFrames atUs rest polled
    (last, nack.toList ++ nacks)

def receiverPoll (r : Receiver) (atUs : ℤ) : Receiver × Output :=
  let (polled, nacks) := pollFrames atUs r.frames.toList r
  (polled, { sent := nacks })

/-! ## The calls -/

/-- Without a callback to send with there is nothing to poll. -/
def poll (r : Receiver) (atUs : ℤ) : Receiver × Output :=
  if r.receiverSend then r.receiverPoll atUs else (r, {})

end Receiver

/-- The messages of one `receiver_incoming` call, each with the reading of the clock at its turn,
and the readings of the drain and the poll that follow. -/
structure Batch where
  arrivals : List (ℤ × MessagePtr)
  drainUs : ℤ
  pollUs : ℤ

/-- What `receiver_incoming` leaves in `messages`, and its other effects. -/
structure Delivery where
  messages : List MessagePtr
  output : Output

namespace Receiver

/-- The loop over the messages: RTP is processed, anything else is kept for the next handler. -/
def receiveArrivals (rtc : Rtc) : List (ℤ × MessagePtr) → Receiver → Receiver × List MessagePtr
  | [], r => (r, [])
  | (atUs, pointer) :: rest, r =>
    match pointer with
    | none =>
      let (last, control) := receiveArrivals rtc rest r
      (last, none :: control)
    | some message =>
      if isRtp rtc (some message) then
        receiveArrivals rtc rest (r.processReceiverPacket rtc atUs message)
      else
        let (last, control) := receiveArrivals rtc rest r
        (last, some message :: control)

def receiverIncoming (rtc : Rtc) (r : Receiver) (batch : Batch) : Receiver × Delivery :=
  let (received, control) := receiveArrivals rtc batch.arrivals { r with receiverSend := true }
  let (drained, ready) := received.drainCompleteFrames batch.drainUs
  let (polled, nacks) := drained.receiverPoll batch.pollUs
  (polled, {
    messages := control ++ ready.frames.flatMap FrameAssembly.packets
    output := { ready with sent := ready.sent ++ nacks.sent } })

end Receiver

/-- The public calls of the handler, in the direction of a receiver. -/
inductive ReceiverCall where
  | incoming (batch : Batch)
  | poll (atUs : ℤ)
  | invalidateSync
  | recordPliSent

/-- One call: the successor, and what was delivered. -/
def Receiver.call (rtc : Rtc) (r : Receiver) : ReceiverCall → Receiver × Delivery
  | .incoming batch => r.receiverIncoming rtc batch
  | .poll atUs => ((r.poll atUs).1, ⟨[], (r.poll atUs).2⟩)
  | .invalidateSync => (r.invalidateSync, ⟨[], {}⟩)
  | .recordPliSent => (r.recordPliSent, ⟨[], {}⟩)

end WeakNetVideo
