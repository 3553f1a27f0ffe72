import WeakNetVideo.Library.Transducer
import WeakNetVideo.Model.Signaling

/-! # Two peers that negotiate

Each peer has a socket, a thread that takes datagrams off it, and a peer connection that announces descriptions and
candidates. Datagrams may be lost, repeated and reordered, and every call on the peer connection may throw.
-/

namespace WeakNetVideo

def Role.other : Role → Role
  | .sender => .receiver
  | .receiver => .sender

/-- A signal as the peer connection announces it: the name of a type has no bar. -/
structure AnnouncedSignal where
  signal : LocalSignal
  noBar : ∀ type sdp, signal = .description type sdp → bar ∉ type

/-- One side: its receiving thread, and the datagrams on their way to it. -/
structure SignalingPeer where
  started : Bool := false
  stopping : Bool := false
  inFlight : List (List Byte) := []
deriving DecidableEq, Repr

structure SignalingSession where
  sender : SignalingPeer := {}
  receiver : SignalingPeer := {}
deriving DecidableEq, Repr

/-- What happens at a peer or on the way to it. A datagram that is delivered `again` stays on its way; of the calls that
it leads to the first `completed` ones return, and the next one throws. -/
inductive SignalingEvent where
  | run (role : Role)
  | announce (role : Role) (announced : AnnouncedSignal) (sendSucceeds : Bool)
  | deliver (role : Role) (datagram : List Byte) (again : Bool) (completed : ℕ)
  | lose (role : Role) (datagram : List Byte)
  | stop (role : Role)

/-- What a step shows: a signal that a peer announces, and the calls on a peer's connection that return. -/
structure SignalingShown where
  announced : List (Role × LocalSignal) := []
  calls : List (Role × PeerCall) := []
deriving DecidableEq, Repr

namespace SignalingSession

def peer (s : SignalingSession) : Role → SignalingPeer
  | .sender => s.sender
  | .receiver => s.receiver

def setPeer (s : SignalingSession) (role : Role) (peer : SignalingPeer) : SignalingSession :=
  match role with
  | .sender => { s with sender := peer }
  | .receiver => { s with receiver := peer }

/-- `run`: the sender makes its description. -/
def run (s : SignalingSession) (role : Role) : SignalingSession × SignalingShown :=
  if (s.peer role).started then (s, {})
  else
    (s.setPeer role { s.peer role with started := true },
      { calls := if role = .sender then [(role, .setLocalDescription)] else [] })

/-- `send`, which only says so when it fails. -/
def send (s : SignalingSession) (role : Role) (message : List Byte) (succeeds : Bool) : SignalingSession :=
  if succeeds then
    s.setPeer role.other { s.peer role.other with inFlight := (s.peer role.other).inFlight ++ [message] }
  else s

/-- The callbacks of `configure_signaling_callbacks`. -/
def announce (s : SignalingSession) (role : Role) (announced : AnnouncedSignal) (sendSucceeds : Bool) :
    SignalingSession × SignalingShown :=
  (s.send role announced.signal.text sendSucceeds, { announced := [(role, announced.signal)] })

/-- A turn of `receive_loop` that takes a datagram off the socket, with `handle_signaling_message`. An exception leaves
the rest of the calls out. -/
def deliver (s : SignalingSession) (role : Role) (datagram : List Byte) (again : Bool) (completed : ℕ) :
    SignalingSession × SignalingShown :=
  let peer := s.peer role
  if peer.started ∧ !peer.stopping ∧ datagram ∈ peer.inFlight then
    let rest := if again then peer.inFlight else peer.inFlight.erase datagram
    if datagram.length = 0 then (s.setPeer role { peer with inFlight := rest }, {})
    else
      (s.setPeer role { peer with inFlight := rest },
        { calls := ((handleSignalingMessage role datagram).take completed).map (role, ·) })
  else (s, {})

def step (s : SignalingSession) : SignalingEvent → SignalingSession × SignalingShown
  | .run role => s.run role
  | .announce role announced sendSucceeds => s.announce role announced sendSucceeds
  | .deliver role datagram again completed => s.deliver role datagram again completed
  | .lose role datagram =>
    (s.setPeer role { s.peer role with inFlight := (s.peer role).inFlight.erase datagram }, {})
  | .stop role => (s.setPeer role { s.peer role with stopping := true }, {})

end SignalingSession

/-- The machine of the two peers and the way between them. -/
def signalingMachine : Transducer SignalingSession SignalingEvent SignalingShown := ⟨SignalingSession.step⟩

/-- The signals that a peer announces in a run. -/
def announcedBy (role : Role) (shown : List SignalingShown) : List LocalSignal :=
  (shown.flatMap SignalingShown.announced).filterMap fun entry => if entry.1 = role then some entry.2 else none

/-- The calls on a peer's connection that return in a run. -/
def callsAt (role : Role) (shown : List SignalingShown) : List PeerCall :=
  (shown.flatMap SignalingShown.calls).filterMap fun entry => if entry.1 = role then some entry.2 else none

namespace SignalingSession

/-! ## The two peers -/

theorem peer_setPeer (s : SignalingSession) (role other : Role) (peer : SignalingPeer) :
    (s.setPeer role peer).peer other = if other = role then peer else s.peer other := by
  cases role <;> cases other <;> rfl

theorem peer_send (s : SignalingSession) (role other : Role) (message : List Byte) (succeeds : Bool) :
    (s.send role message succeeds).peer other =
      { s.peer other with
        inFlight := (s.peer other).inFlight ++ if succeeds ∧ other = role.other then [message] else [] } := by
  rw [send]
  cases succeeds with
  | false => simp
  | true =>
    rw [if_pos rfl, peer_setPeer]
    by_cases there : other = role.other
    · subst there
      simp
    · simp [there]

end SignalingSession

end WeakNetVideo
