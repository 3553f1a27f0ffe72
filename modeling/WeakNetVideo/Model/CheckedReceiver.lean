import WeakNetVideo.Library.Bounded
import WeakNetVideo.Model.ReceiverEvents

/-! # Reassembly with its slots checked

The events of the receiver, as the source has them, with every access to a slot of an assembly checked. Frames
that are handed on are moved out of their slots one by one, and the entry that is left stays in the buffer until
it is erased.
-/

namespace WeakNetVideo.Checked

open Bounded

variable (rtc : Rtc)

/-! ## Storing a packet -/

def fillSlot (metadata : FrameMetadata) (message : Message) (frame : FrameAssembly) :
    Except Fault FrameAssembly := do
  let slot ← itemAt frame.packets metadata.packetIndex.toNat
  let packets ← if slot.isNone then setItem frame.packets metadata.packetIndex.toNat (some message)
    else .ok frame.packets
  return { frame with packets := packets, markerSeen := frame.markerSeen || Rtp.marker message.bytes }

def storePacket (r : Receiver) (atUs : ℤ) (metadata : FrameMetadata) (message : Message) :
    Except Fault Receiver := do
  let frame := Receiver.openAssembly atUs metadata message (r.frames[metadata.frameId]?.getD {})
  if frame.packetCount ≠ metadata.packetCount ∨ frame.epoch ≠ metadata.epoch ∨
      frame.keyframe ≠ metadata.keyframe then
    return Receiver.markUnsynchronized { r with frames := r.frames.erase metadata.frameId }
  else
    let stored := { r with frames := r.frames.insert metadata.frameId (← fillSlot metadata message frame) }
    return Receiver.evict stored.frames.size stored

/-- `process_receiver_packet`. -/
def processReceiverPacket (r : Receiver) (atUs : ℤ) (message : Message) : Except Fault Receiver :=
  match Receiver.validMetadata rtc message with
  | none => return r.markUnsynchronized
  | some metadata => storePacket ((r.adoptEpoch metadata).withPlaceholders atUs metadata) atUs metadata message

/-! ## Handing on complete frames -/

/-- The packets of an entry are moved out: the buffer with what is left of it, and what is handed on. -/
def moveOut (frames : FrameMap) (id : UInt32) (frame : FrameAssembly) :
    Except Fault (FrameMap × FrameAssembly) := do
  let (ready, left) ← takeOut none frame.packets.length 0 frame.packets
  return (frames.insert id { frame with packets := left }, { frame with packets := ready })

def resync (atUs : ℤ) : List (UInt32 × FrameAssembly) → Receiver → Except Fault (Receiver × Output)
  | [], r => return (r, {})
  | (id, frame) :: rest, r => do
    if frame.complete && frame.keyframe then
      let (frames, ready) ← moveOut r.frames id frame
      return ({ r with
          frames := OrderedMap.eraseThrough frames id
          nextOutputFrameId := some (frame.frameId + 1)
          stats := { r.stats with
            completeFrames := r.stats.completeFrames + 1
            synchronized := true } },
        { frames := [ready], sent := [keyframeAck frame.epoch frame.frameId], syncRestored := 1 })
    else if frame.complete ∨ atUs - frame.firstSeenUs ≥ r.recoveryTimeoutUs then
      resync atUs rest { r with
        frames := r.frames.erase id
        stats := { r.stats with droppedFrames := r.stats.droppedFrames + 1 } }
    else resync atUs rest r

def drainInOrder (atUs : ℤ) : ℕ → Receiver → Except Fault (Receiver × Output)
  | 0, r => return (r, {})
  | fuel + 1, r =>
    match r.nextOutputFrameId with
    | none => return (r, {})
    | some next =>
      match r.frames[next]? with
      | none => return (r, {})
      | some frame => do
        if frame.complete then
          let (frames, ready) ← moveOut r.frames next frame
          let (last, output) ← drainInOrder atUs fuel { r with
            frames := frames.erase next
            nextOutputFrameId := some (next + 1)
            stats := { r.stats with completeFrames := r.stats.completeFrames + 1 } }
          return (last, { output with frames := ready :: output.frames })
        else if atUs - frame.firstSeenUs ≥ r.recoveryTimeoutUs then
          return (Receiver.markUnsynchronized { r with
            frames := r.frames.erase next
            nextOutputFrameId := some (next + 1)
            stats := { r.stats with droppedFrames := r.stats.droppedFrames + 1 } }, {})
        else return (r, {})

/-- `drain_complete_frames`. -/
def drainCompleteFrames (r : Receiver) (atUs : ℤ) : Except Fault (Receiver × Output) :=
  if r.stats.synchronized then drainInOrder atUs r.frames.size r
  else resync atUs r.frames.toList r

/-! ## Asking for missing packets -/

/-- The loop over so many slots from `i` on, which collects the sequence numbers of the empty ones. -/
def missingSequences (frame : FrameAssembly) : ℕ → ℕ → Except Fault (List UInt16)
  | 0, _ => return []
  | count + 1, i => do
    let slot ← itemAt frame.packets i
    let later ← missingSequences frame count (i + 1)
    return if slot.isNone then (frame.firstSequence + UInt16.ofNat i) :: later else later

/-- `send_nack`. -/
def sendNack (frame : FrameAssembly) : Except Fault (Option Message) := do
  let missing ← missingSequences frame frame.packetCount.toNat 0
  return if missing.isEmpty then none else some (nackMessage (nackGroups missing))

def pollFrame (atUs : ℤ) (r : Receiver) (entry : UInt32 × FrameAssembly) :
    Except Fault (Receiver × Option Message) := do
  let (id, frame) := entry
  if frame.packetCount = 0 ∨ frame.complete then return (r, none)
  else if r.nackDue atUs frame then
    let nack ← sendNack frame
    return ({ r with
        frames := r.frames.insert id { frame with lastNackUs := atUs }
        stats := { r.stats with nackPackets := r.stats.nackPackets + (if nack.isSome then 1 else 0) } }, nack)
  else return (r, none)

def pollFrames (atUs : ℤ) : List (UInt32 × FrameAssembly) → Receiver → Except Fault (Receiver × List Message)
  | [], r => return (r, [])
  | entry :: rest, r => do
    let (polled, nack) ← pollFrame atUs r entry
    let (last, nacks) ← pollFrames atUs rest polled
    return (last, nack.toList ++ nacks)

/-- `receiver_poll`, when there is a callback to send with. -/
def poll (r : Receiver) (atUs : ℤ) : Except Fault (Receiver × Output) := do
  if r.receiverSend then
    let (polled, nacks) ← pollFrames atUs r.frames.toList r
    return (polled, { sent := nacks })
  else return (r, {})

/-! ## The events -/

def step (r : Receiver) : ReceiverEvent → Except Fault (Receiver × Output)
  | .bindSend => return ({ r with receiverSend := true }, {})
  | .packet atUs message => return (← processReceiverPacket rtc r atUs message, {})
  | .drain atUs => drainCompleteFrames r atUs
  | .poll atUs => poll r atUs
  | .invalidateSync => return (r.invalidateSync, {})
  | .recordPliSent => return (r.recordPliSent, {})

end WeakNetVideo.Checked
