import WeakNetVideo.Library.Transducer
import WeakNetVideo.Model.Receiver

/-! # The receiver as a machine

One call of the receiving handler takes the lock for several things in turn. Here each of them is an
event of its own, so that a run can be cut between the packets of a batch, its drain and its poll.
-/

namespace WeakNetVideo

inductive ReceiverEvent where
  | bindSend
  | packet (atUs : ℤ) (message : Message)
  | drain (atUs : ℤ)
  | poll (atUs : ℤ)
  | invalidateSync
  | recordPliSent
deriving DecidableEq

def Receiver.step (rtc : Rtc) (r : Receiver) : ReceiverEvent → Receiver × Output
  | .bindSend => ({ r with receiverSend := true }, {})
  | .packet atUs message => (r.processReceiverPacket rtc atUs message, {})
  | .drain atUs => r.drainCompleteFrames atUs
  | .poll atUs => r.poll atUs
  | .invalidateSync => (r.invalidateSync, {})
  | .recordPliSent => (r.recordPliSent, {})

/-- The machine of single events. -/
def receiverMachine (rtc : Rtc) : Transducer Receiver ReceiverEvent Output := ⟨Receiver.step rtc⟩

/-- The machine of the public calls. -/
def receiverCalls (rtc : Rtc) : Transducer Receiver ReceiverCall Delivery := ⟨Receiver.call rtc⟩

/-- The media packets of a batch, with the readings of the clock. -/
def mediaArrivals (rtc : Rtc) (arrivals : List (ℤ × MessagePtr)) : List (ℤ × Message) :=
  arrivals.filterMap fun (atUs, pointer) =>
    if isRtp rtc pointer then pointer.map fun message => (atUs, message) else none

/-- What a batch holds besides media packets. -/
def controlMessages (rtc : Rtc) (arrivals : List (ℤ × MessagePtr)) : List MessagePtr :=
  (arrivals.map Prod.snd).filter fun pointer => !isRtp rtc pointer

def packetEvents (media : List (ℤ × Message)) : List ReceiverEvent :=
  media.map fun (atUs, message) => .packet atUs message

/-- The events of a call. -/
def ReceiverCall.events (rtc : Rtc) : ReceiverCall → List ReceiverEvent
  | .incoming batch =>
    .bindSend :: (packetEvents (mediaArrivals rtc batch.arrivals) ++
      [.drain batch.drainUs, .poll batch.pollUs])
  | .poll atUs => [.poll atUs]
  | .invalidateSync => [.invalidateSync]
  | .recordPliSent => [.recordPliSent]

/-- The events of a whole run of calls. -/
def runEvents (rtc : Rtc) (calls : List ReceiverCall) : List ReceiverEvent :=
  calls.flatMap (ReceiverCall.events rtc)

/-- What a thread does while it holds the lock of the handler: the first part of `receiver_incoming`, a poll
(the second part, or one of the recovery loop), or another call. -/
inductive ReceiverTurn where
  | batch (arrivals : List (ℤ × MessagePtr)) (drainUs : ℤ)
  | poll (atUs : ℤ)
  | invalidateSync
  | recordPliSent
deriving DecidableEq

/-- The events of a turn. -/
def ReceiverTurn.events (rtc : Rtc) : ReceiverTurn → List ReceiverEvent
  | .batch arrivals drainUs =>
    .bindSend :: (packetEvents (mediaArrivals rtc arrivals) ++ [.drain drainUs])
  | .poll atUs => [.poll atUs]
  | .invalidateSync => [.invalidateSync]
  | .recordPliSent => [.recordPliSent]

/-- The turns of a call; those of other threads may come between them. -/
def ReceiverCall.turns : ReceiverCall → List ReceiverTurn
  | .incoming batch => [.batch batch.arrivals batch.drainUs, .poll batch.pollUs]
  | .poll atUs => [.poll atUs]
  | .invalidateSync => [.invalidateSync]
  | .recordPliSent => [.recordPliSent]

/-- The events of turns, whichever threads they are of. -/
def turnEvents (rtc : Rtc) (turns : List ReceiverTurn) : List ReceiverEvent :=
  turns.flatMap (ReceiverTurn.events rtc)

/-- The readings of the clock at the packets of a run are positive, as those of a running clock are;
the code takes a zero for a frame that was never seen. -/
def PositiveTimes (calls : List ReceiverCall) : Prop :=
  ∀ batch, .incoming batch ∈ calls → ∀ arrival ∈ batch.arrivals, 0 < arrival.1

/-- The frames a run of calls hands on. -/
def emitted (rtc : Rtc) (r : Receiver) (calls : List ReceiverCall) : List FrameAssembly :=
  ((receiverCalls rtc).outputs r calls).flatMap fun delivery => delivery.output.frames

end WeakNetVideo
