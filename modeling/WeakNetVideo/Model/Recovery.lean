import WeakNetVideo.Model.Sender
import WeakNetVideo.Model.ReceiverEvents
import Mathlib.Data.List.Perm.Subperm

/-! # The recovery protocol

The receiver asks for keyframes while it is not synchronized and acknowledges the keyframe that restores
the synchronization; the sender stays in recovery mode from a request to an acknowledgement. The
recovery loop tests and sends in two steps, on a thread of its own. The messages in flight from the
receiver to the sender may be lost, delayed and reordered.
-/

namespace WeakNetVideo

/-- How `requestKeyframe` ends: the request goes out, it is not sent, or an exception is thrown. -/
inductive RequestOutcome where
  | sent
  | refused
  | threw
deriving DecidableEq

/-- Both parties and what is in flight between them. `request` holds the clock reading of a recovery
loop that has tested and not yet sent. -/
structure Protocol where
  receiver : Receiver
  request : Option ℤ := none
  lastPliUs : ℤ := 0
  inFlight : List Message := []
  sender : Sender := {}
  flags : RecoveryFlags := {}

/-- A step of the receiver's handler, of its recovery loop, or of the network. -/
inductive ProtocolEvent where
  | receiver (event : ReceiverEvent)
  | test (atUs : ℤ) (trackOpen : Bool)
  | send (outcome : RequestOutcome)
  | deliver (messages : List Message)
  | lose (messages : List Message)
deriving DecidableEq

namespace Protocol

def new (recoveryTimeoutMs : ℤ) : Protocol where
  receiver := .new recoveryTimeoutMs

/-- The test of `recovery_loop`. -/
def test (s : Protocol) (atUs : ℤ) (trackOpen : Bool) : Protocol :=
  if s.request = none ∧ trackOpen ∧ s.receiver.needsKeyframe ∧ atUs - s.lastPliUs ≥ 250000 then
    { s with request := some atUs }
  else s

/-- The send of `recovery_loop`: only an exception leaves the request uncounted. -/
def send (pli : Message) (s : Protocol) (outcome : RequestOutcome) : Protocol :=
  match s.request with
  | none => s
  | some atUs =>
    { s with
      request := none
      lastPliUs := atUs
      receiver := if outcome = .threw then s.receiver else s.receiver.recordPliSent
      inFlight := if outcome = .sent then s.inFlight ++ [pli] else s.inFlight }

/-- A batch of messages in flight reaches the sender, and the callbacks run. -/
def deliver (s : Protocol) (messages : List Message) : Protocol :=
  if messages.Subperm s.inFlight then
    let (sender, feedback) := s.sender.senderIncoming (messages.map some)
    { s with
      sender := sender
      flags := s.flags.afterBatch feedback
      inFlight := s.inFlight.diff messages }
  else s

/-- Messages in flight are lost. -/
def lose (s : Protocol) (messages : List Message) : Protocol :=
  { s with inFlight := s.inFlight.diff messages }

/-- One step. What the handler sends back is in flight from then on. -/
def step (rtc : Rtc) (pli : Message) (s : Protocol) : ProtocolEvent → Protocol × Output
  | .receiver event =>
    let (receiver, output) := s.receiver.step rtc event
    ({ s with receiver := receiver, inFlight := s.inFlight ++ output.sent }, output)
  | .test atUs trackOpen => (s.test atUs trackOpen, {})
  | .send outcome => (s.send pli outcome, {})
  | .deliver messages => (s.deliver messages, {})
  | .lose messages => (s.lose messages, {})

end Protocol

/-- The machine of the protocol. `pli` is the request that `requestKeyframe` sends. -/
def protocolMachine (rtc : Rtc) (pli : Message) : Transducer Protocol ProtocolEvent Output :=
  ⟨Protocol.step rtc pli⟩

/-- What the sender makes of a message by itself. -/
def asksKeyframe (message : Message) : Bool :=
  (Feedback.observeMessage {} (some message)).requestKeyframe

def acknowledgesKeyframe (message : Message) : Bool :=
  (Feedback.observeMessage {} (some message)).keyframeAcknowledged

end WeakNetVideo
