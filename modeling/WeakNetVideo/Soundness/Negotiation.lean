import Mathlib.Algebra.BigOperators.Group.List.Basic
import WeakNetVideo.Model.SignalingSession
import WeakNetVideo.Soundness.Signaling

/-! # One offer, and answers to it only

The peers talk over datagrams: what one of them has announced may not come, come twice or come in another order, and
the calls that it leads to may throw. Yet a peer connection is told only what the other one has announced, the sender
makes one offer and answers none, and the receiver answers offers only. Without repeated datagrams there is one answer.
-/

namespace WeakNetVideo

variable {role other : Role} {past : List SignalingShown} {s : SignalingSession}

/-! ## Signals and calls -/

def LocalSignal.isDescription : LocalSignal → Bool
  | .description .. => true
  | .candidate .. => false

def PeerCall.setsRemote : PeerCall → Bool
  | .setRemoteDescription .. => true
  | _ => false

def PeerCall.takesOffer : PeerCall → Bool
  | .setRemoteDescription _ type => type = offerType
  | _ => false

theorem announcedBy_append (role : Role) (past later : List SignalingShown) :
    announcedBy role (past ++ later) = announcedBy role past ++ announcedBy role later := by
  simp only [announcedBy, List.flatMap_append, List.filterMap_append]

theorem callsAt_append (role : Role) (past later : List SignalingShown) :
    callsAt role (past ++ later) = callsAt role past ++ callsAt role later := by
  simp only [callsAt, List.flatMap_append, List.filterMap_append]

/-- The calls that a step shows at the peer that makes them, and at the other. -/
theorem callsAt_own (role other : Role) (calls : List PeerCall) :
    callsAt other [{ calls := calls.map (role, ·) }] = if role = other then calls else [] := by
  simp only [callsAt, List.flatMap_cons, List.flatMap_nil, List.append_nil, List.filterMap_map]
  split_ifs with own
  · subst own
    simp
  · simp [own]

/-- The signal that a step shows. -/
theorem announcedBy_own (role other : Role) (signal : LocalSignal) :
    announcedBy other [{ announced := [(role, signal)] }] = if role = other then [signal] else [] := by
  by_cases own : role = other <;> simp [announcedBy, own]

theorem Role.other_other (role : Role) : role.other.other = role := by
  cases role <;> rfl

theorem AnnouncedSignal.typeHasNoBar (announced : AnnouncedSignal) : announced.signal.TypeHasNoBar := by
  cases same : announced.signal with
  | description type sdp => exact announced.noBar type sdp same
  | candidate mid line => trivial

/-- A message leads to the calls of the signal that it was made of, or to none. -/
theorem calls_of_text {signal : LocalSignal} (free : signal.TypeHasNoBar) {call : PeerCall}
    (member : call ∈ handleSignalingMessage role signal.text) : call ∈ signal.calls role := by
  rw [handleSignalingMessage_text role signal free] at member
  split_ifs at member
  · contradiction
  · exact member

/-- The sender does not answer, and the receiver only an offer that it has taken. -/
theorem count_answers (role : Role) (signal : LocalSignal) (free : signal.TypeHasNoBar) (completed : ℕ) :
    ((handleSignalingMessage role signal.text).take completed).count .setLocalDescription ≤
      if role = .receiver then ((handleSignalingMessage role signal.text).take completed).countP PeerCall.takesOffer
      else 0 := by
  rw [handleSignalingMessage_text role signal free]
  split_ifs with empty receives receives
  · simp
  · simp
  · subst receives
    cases signal with
    | description type sdp =>
      by_cases offer : type = offerType
      · subst offer
        rcases completed with _ | _ | completed
        · simp
        · simp [LocalSignal.calls]
        · simp [LocalSignal.calls, PeerCall.takesOffer]
      · rcases completed with _ | completed <;> simp [LocalSignal.calls, offer]
    | candidate mid line => rcases completed with _ | completed <;> simp [LocalSignal.calls]
  · cases signal <;> rcases completed with _ | completed <;> simp [LocalSignal.calls, receives]

/-! ## Runs -/

/-- A description is announced for a call that makes one, and only once. -/
def SignalingEvent.Told (past : List SignalingShown) : SignalingEvent → Prop
  | .announce role announced _ => announced.signal.isDescription = true →
      (announcedBy role past).countP LocalSignal.isDescription < (callsAt role past).count .setLocalDescription
  | _ => True

instance (past : List SignalingShown) (event : SignalingEvent) : Decidable (event.Told past) := by
  cases event <;> unfold SignalingEvent.Told <;> infer_instance

/-- The peer connections do not negotiate on their own: the library is configured with `disableAutoNegotiation`. -/
def DescribesWhenTold (events : List SignalingEvent) : Prop :=
  signalingMachine.Everywhere (fun past _ event => event.Told past) [] {} events

instance (events : List SignalingEvent) : Decidable (DescribesWhenTold events) :=
  inferInstanceAs (Decidable (signalingMachine.Everywhere _ [] {} events))

/-- What holds behind a run, of what it has shown and of what is on its way. -/
structure Negotiates (past : List SignalingShown) (s : SignalingSession) : Prop where
  inFlight : ∀ role, ∀ datagram ∈ (s.peer role).inFlight, ∃ signal ∈ announcedBy role.other past,
    datagram = signal.text ∧ signal.TypeHasNoBar
  told : ∀ role, ∀ call ∈ callsAt role past, call = .setLocalDescription ∨
    ∃ signal ∈ announcedBy role.other past, call ∈ signal.calls role
  announced : ∀ role, (announcedBy role past).countP LocalSignal.isDescription ≤
    (callsAt role past).count .setLocalDescription
  offers : (callsAt .sender past).count .setLocalDescription = if s.sender.started then 1 else 0
  answers : (callsAt .receiver past).count .setLocalDescription ≤
    (callsAt .receiver past).countP PeerCall.takesOffer

section SetPeer

variable {peer : SignalingPeer}

private theorem inFlight_setPeer (fewer : ∀ datagram ∈ peer.inFlight, datagram ∈ (s.peer role).inFlight)
    (other : Role) : ∀ datagram ∈ ((s.setPeer role peer).peer other).inFlight, datagram ∈ (s.peer other).inFlight := by
  rw [SignalingSession.peer_setPeer]
  by_cases own : other = role
  · rw [if_pos own, own]
    exact fewer
  · rw [if_neg own]
    exact fun _ => id

private theorem started_setPeer (started : peer.started = (s.peer role).started) :
    (s.setPeer role peer).sender.started = s.sender.started := by
  cases role with
  | sender => exact started
  | receiver => rfl

end SetPeer

/-- A step that shows nothing, and at most takes datagrams away. -/
private theorem Negotiates.still (negotiates : Negotiates past s) {t : SignalingSession}
    (fewer : ∀ role, ∀ datagram ∈ (t.peer role).inFlight, datagram ∈ (s.peer role).inFlight)
    (started : t.sender.started = s.sender.started) : Negotiates (past ++ [({} : SignalingShown)]) t := by
  have announced (role : Role) : announcedBy role (past ++ [({} : SignalingShown)]) = announcedBy role past :=
    (announcedBy_append role past _).trans (List.append_nil _)
  have calls (role : Role) : callsAt role (past ++ [({} : SignalingShown)]) = callsAt role past :=
    (callsAt_append role past _).trans (List.append_nil _)
  constructor
  · intro role datagram member
    rw [announced]
    exact negotiates.inFlight role datagram (fewer role datagram member)
  · intro role call member
    rw [announced]
    rw [calls] at member
    exact negotiates.told role call member
  · intro role
    rw [announced, calls]
    exact negotiates.announced role
  · rw [calls, started]
    exact negotiates.offers
  · rw [calls]
    exact negotiates.answers

/-- Calls of a peer that come of a signal of the other one. -/
private theorem Negotiates.called (negotiates : Negotiates past s) {t : SignalingSession} {calls : List PeerCall}
    (fewer : ∀ role, ∀ datagram ∈ (t.peer role).inFlight, datagram ∈ (s.peer role).inFlight)
    (told : ∀ call ∈ calls, call = .setLocalDescription ∨
      ∃ signal ∈ announcedBy role.other past, call ∈ signal.calls role)
    (offers : (if s.sender.started then 1 else 0) + (if role = .sender then calls.count .setLocalDescription else 0) =
      if t.sender.started then 1 else 0)
    (answers : role = .receiver → calls.count .setLocalDescription ≤ calls.countP PeerCall.takesOffer) :
    Negotiates (past ++ [{ calls := calls.map (role, ·) }]) t := by
  have announced (other : Role) : announcedBy other (past ++ [{ calls := calls.map (role, ·) }]) =
      announcedBy other past := (announcedBy_append other past _).trans (List.append_nil _)
  have called (other : Role) : callsAt other (past ++ [{ calls := calls.map (role, ·) }]) =
      callsAt other past ++ if role = other then calls else [] := by
    rw [callsAt_append, callsAt_own]
  constructor
  · intro other datagram member
    rw [announced]
    exact negotiates.inFlight other datagram (fewer other datagram member)
  · intro other call member
    rw [announced]
    rw [called] at member
    rcases List.mem_append.mp member with before | now
    · exact negotiates.told other call before
    · split_ifs at now with own
      · subst own
        exact told call now
      · contradiction
  · intro other
    rw [announced, called, List.count_append]
    exact (negotiates.announced other).trans (Nat.le_add_right _ _)
  · rw [called, List.count_append, negotiates.offers, ← offers]
    split_ifs <;> rfl
  · have before := negotiates.answers
    rw [called, List.count_append, List.countP_append]
    split_ifs with own
    · have now := answers own
      omega
    · exact before

/-- A signal that a peer announces, on its way or not. -/
private theorem negotiates_announce (negotiates : Negotiates past s) (role : Role) (announced : AnnouncedSignal)
    (sendSucceeds : Bool) (told : announced.signal.isDescription = true →
      (announcedBy role past).countP LocalSignal.isDescription < (callsAt role past).count .setLocalDescription) :
    Negotiates (past ++ [(s.announce role announced sendSucceeds).2]) (s.announce role announced sendSucceeds).1 := by
  have shown (other : Role) : announcedBy other (past ++ [{ announced := [(role, announced.signal)] }]) =
      announcedBy other past ++ if role = other then [announced.signal] else [] := by
    rw [announcedBy_append, announcedBy_own]
  have calls (other : Role) : callsAt other (past ++ [{ announced := [(role, announced.signal)] }]) =
      callsAt other past := (callsAt_append other past _).trans (List.append_nil _)
  rw [SignalingSession.announce]
  constructor
  · intro other datagram member
    rw [SignalingSession.peer_send] at member
    rw [shown]
    rcases List.mem_append.mp member with before | now
    · obtain ⟨signal, earlier, same⟩ := negotiates.inFlight other datagram before
      exact ⟨signal, List.mem_append_left _ earlier, same⟩
    · split_ifs at now with here
      · obtain rfl := here.2
        rw [Role.other_other, if_pos rfl]
        exact ⟨announced.signal, List.mem_append_right _ (List.mem_singleton_self _), List.mem_singleton.mp now,
          announced.typeHasNoBar⟩
      · contradiction
  · intro other call member
    rw [calls] at member
    rw [shown]
    rcases negotiates.told other call member with own | ⟨signal, earlier, same⟩
    · exact .inl own
    · exact .inr ⟨signal, List.mem_append_left _ earlier, same⟩
  · intro other
    have before := negotiates.announced other
    rw [shown, calls, List.countP_append]
    by_cases own : role = other
    · subst own
      rw [if_pos rfl, List.countP_singleton]
      split_ifs with description
      · exact told description
      · exact before
    · rw [if_neg own]
      exact before
  · have started := congrArg SignalingPeer.started
      (SignalingSession.peer_send s role .sender announced.signal.text sendSucceeds)
    rw [calls, negotiates.offers]
    exact congrArg (fun flag : Bool => if flag then 1 else 0) started.symm
  · rw [calls]
    exact negotiates.answers

/-- A peer that shows nothing. -/
private theorem Negotiates.quiet (negotiates : Negotiates past s) {peer : SignalingPeer}
    (fewer : ∀ datagram ∈ peer.inFlight, datagram ∈ (s.peer role).inFlight)
    (started : (s.setPeer role peer).sender.started = s.sender.started) :
    Negotiates (past ++ [({} : SignalingShown)]) (s.setPeer role peer) := by
  exact negotiates.still (inFlight_setPeer fewer) started

private theorem negotiates_run (negotiates : Negotiates past s) (role : Role) :
    Negotiates (past ++ [(s.run role).2]) (s.run role).1 := by
  rw [SignalingSession.run]
  split_ifs with started sends
  · exact negotiates.still (fun _ _ => id) rfl
  · subst sends
    have fresh : s.sender.started = false := Bool.eq_false_of_not_eq_true started
    apply @Negotiates.called .sender past s negotiates _ [.setLocalDescription]
    · exact inFlight_setPeer fun _ => id
    · exact fun call member => .inl (List.mem_singleton.mp member)
    · rw [fresh]
      rfl
    · exact fun receives => absurd receives (by decide)
  · apply negotiates.quiet
    · exact fun _ => id
    · cases role with
      | sender => exact absurd rfl sends
      | receiver => rfl

private theorem negotiates_deliver (negotiates : Negotiates past s) (role : Role) (datagram : List Byte) (again : Bool)
    (completed : ℕ) :
    Negotiates (past ++ [(s.deliver role datagram again completed).2]) (s.deliver role datagram again completed).1 := by
  rw [SignalingSession.deliver]
  dsimp only
  by_cases takes : (s.peer role).started = true ∧ (!(s.peer role).stopping) = true ∧ datagram ∈ (s.peer role).inFlight
  · have fewer : ∀ other ∈ if again then (s.peer role).inFlight else (s.peer role).inFlight.erase datagram,
        other ∈ (s.peer role).inFlight := by
      cases again
      · exact fun other => List.mem_of_mem_erase
      · exact fun other => id
    rw [if_pos takes]
    by_cases empty : datagram.length = 0
    · rw [if_pos empty]
      exact negotiates.quiet fewer (started_setPeer rfl)
    · rw [if_neg empty]
      obtain ⟨signal, announced, rfl, free⟩ := negotiates.inFlight role datagram takes.2.2
      have answers := count_answers role signal free completed
      apply negotiates.called
      · exact inFlight_setPeer fewer
      · intro call member
        exact .inr ⟨signal, announced, calls_of_text free (List.mem_of_mem_take member)⟩
      · rw [started_setPeer (by rfl)]
        cases role with
        | sender => rw [if_pos rfl, Nat.le_zero.mp answers, Nat.add_zero]
        | receiver => rfl
      · intro receives
        rwa [if_pos receives] at answers
  · rw [if_neg takes]
    exact negotiates.still (fun _ _ => id) rfl

private theorem negotiates_step (negotiates : Negotiates past s) (event : SignalingEvent) (told : event.Told past) :
    Negotiates (past ++ [(s.step event).2]) (s.step event).1 := by
  cases event with
  | run role => exact negotiates_run negotiates role
  | announce role announced sendSucceeds => exact negotiates_announce negotiates role announced sendSucceeds told
  | deliver role datagram again completed => exact negotiates_deliver negotiates role datagram again completed
  | lose role datagram => exact negotiates.quiet (fun _ => List.mem_of_mem_erase) (started_setPeer rfl)
  | stop role => exact negotiates.quiet (fun _ => id) (started_setPeer rfl)

theorem negotiates_outputs {events : List SignalingEvent} (told : DescribesWhenTold events) :
    Negotiates (signalingMachine.outputs {} events) (signalingMachine.final {} events) := by
  have start : Negotiates [] {} := by
    constructor
    · intro role datagram member
      cases role <;> contradiction
    · intro role call member
      contradiction
    · intro role
      exact le_refl _
    · rfl
    · rfl
  exact @Transducer.invariant _ _ _ signalingMachine Negotiates (fun past _ event => event.Told past)
    (fun past s event negotiates told => negotiates_step negotiates event told) [] {} events start told

/-! ## Without repeated datagrams -/

/-- No datagram is delivered twice. -/
def SignalingEvent.Once : SignalingEvent → Prop
  | .deliver _ _ again _ => again = false
  | _ => True

/-- The remote descriptions that a datagram sets. -/
def remoteDescriptions (datagram : List Byte) : ℕ :=
  (handleSignalingMessage .sender datagram).countP PeerCall.setsRemote

private theorem countP_setsRemote (role : Role) (datagram : List Byte) :
    (handleSignalingMessage role datagram).countP PeerCall.setsRemote = remoteDescriptions datagram := by
  rw [remoteDescriptions, handleSignalingMessage, handleSignalingMessage]
  split
  · split_ifs <;> rfl
  · rfl

private theorem remoteDescriptions_text {signal : LocalSignal} (free : signal.TypeHasNoBar) :
    remoteDescriptions signal.text ≤ if signal.isDescription then 1 else 0 := by
  rw [remoteDescriptions, handleSignalingMessage_text .sender signal free]
  split_ifs with empty description description
  · exact Nat.zero_le _
  · exact Nat.zero_le _
  · cases signal <;> simp_all [LocalSignal.calls, PeerCall.setsRemote]
  · cases signal <;> simp_all [LocalSignal.calls, PeerCall.setsRemote, LocalSignal.isDescription]

/-- Every description that has been announced is on its way or set at most once. -/
def SetOnce (past : List SignalingShown) (s : SignalingSession) : Prop :=
  ∀ role, (callsAt role past).countP PeerCall.setsRemote + ((s.peer role).inFlight.map remoteDescriptions).sum ≤
    (announcedBy role.other past).countP LocalSignal.isDescription

/-- A step sets no more than it takes off the way, and puts no more there than it announces. -/
private theorem SetOnce.concat (once : SetOnce past s) {shown : SignalingShown} {t : SignalingSession}
    (moved : ∀ role, (callsAt role [shown]).countP PeerCall.setsRemote +
        ((t.peer role).inFlight.map remoteDescriptions).sum ≤
      ((s.peer role).inFlight.map remoteDescriptions).sum +
        (announcedBy role.other [shown]).countP LocalSignal.isDescription) : SetOnce (past ++ [shown]) t := by
  intro role
  have before := once role
  have step := moved role
  rw [callsAt_append, announcedBy_append, List.countP_append, List.countP_append]
  omega

private theorem sum_setPeer {peer : SignalingPeer}
    (fewer : (peer.inFlight.map remoteDescriptions).sum ≤ ((s.peer role).inFlight.map remoteDescriptions).sum)
    (other : Role) : (((s.setPeer role peer).peer other).inFlight.map remoteDescriptions).sum ≤
      ((s.peer other).inFlight.map remoteDescriptions).sum := by
  rw [SignalingSession.peer_setPeer]
  by_cases own : other = role
  · rw [if_pos own, own]
    exact fewer
  · rw [if_neg own]

private theorem sum_erase (datagram : List Byte) (inFlight : List (List Byte)) :
    ((inFlight.erase datagram).map remoteDescriptions).sum ≤ (inFlight.map remoteDescriptions).sum :=
  (List.erase_sublist.map _).sum_le_sum fun _ _ => Nat.zero_le _

private theorem setOnce_announce (once : SetOnce past s) (role : Role) (announced : AnnouncedSignal)
    (sendSucceeds : Bool) :
    SetOnce (past ++ [(s.announce role announced sendSucceeds).2]) (s.announce role announced sendSucceeds).1 := by
  rw [SignalingSession.announce]
  apply once.concat
  intro other
  have weight := remoteDescriptions_text announced.typeHasNoBar
  rw [SignalingSession.peer_send, List.map_append, List.sum_append, announcedBy_own]
  by_cases there : other = role.other
  · subst there
    rw [if_pos (Role.other_other role).symm, List.countP_singleton]
    have calls :
        (callsAt role.other [{ announced := [(role, announced.signal)] }]).countP PeerCall.setsRemote = 0 := rfl
    cases sendSucceeds <;> simp [calls]
    exact weight
  · rw [if_neg fun sent => there sent.2]
    exact le_trans (le_of_eq (Nat.zero_add _)) (Nat.le_add_right _ _)

private theorem setOnce_deliver (once : SetOnce past s) (role : Role) (datagram : List Byte) (completed : ℕ) :
    SetOnce (past ++ [(s.deliver role datagram false completed).2]) (s.deliver role datagram false completed).1 := by
  rw [SignalingSession.deliver]
  dsimp only
  by_cases takes : (s.peer role).started = true ∧ (!(s.peer role).stopping) = true ∧ datagram ∈ (s.peer role).inFlight
  · rw [if_pos takes, if_neg Bool.false_ne_true]
    by_cases empty : datagram.length = 0
    · rw [if_pos empty]
      apply once.concat
      intro other
      exact (Nat.zero_add _).trans_le (@sum_setPeer role s _ (sum_erase datagram _) other)
    · rw [if_neg empty]
      apply once.concat
      intro other
      rw [callsAt_own, SignalingSession.peer_setPeer]
      by_cases own : other = role
      · subst own
        have set : ((handleSignalingMessage other datagram).take completed).countP PeerCall.setsRemote ≤
            remoteDescriptions datagram :=
          (List.take_sublist completed _).countP_le.trans_eq (countP_setsRemote other datagram)
        rw [if_pos rfl, if_pos rfl]
        have taken : ((s.peer other).inFlight.map remoteDescriptions).sum =
            remoteDescriptions datagram + (((s.peer other).inFlight.erase datagram).map remoteDescriptions).sum :=
          ((List.perm_cons_erase takes.2.2).map remoteDescriptions).sum_nat
        dsimp only
        omega
      · rw [if_neg own, if_neg (Ne.symm own)]
        exact le_of_eq (Nat.zero_add _)
  · rw [if_neg takes]
    exact once.concat fun _ => le_of_eq (Nat.zero_add _)

private theorem setOnce_step (once : SetOnce past s) {event : SignalingEvent} (single : event.Once) :
    SetOnce (past ++ [(s.step event).2]) (s.step event).1 := by
  -- A peer that shows no remote description and gets no datagram.
  have idle {role : Role} {peer : SignalingPeer} {calls : List PeerCall} (none : calls.countP PeerCall.setsRemote = 0)
      (fewer : (peer.inFlight.map remoteDescriptions).sum ≤ ((s.peer role).inFlight.map remoteDescriptions).sum) :
      SetOnce (past ++ [{ calls := calls.map (role, ·) }]) (s.setPeer role peer) := by
    apply once.concat
    intro other
    have sum := sum_setPeer fewer other
    rw [callsAt_own]
    split_ifs <;> simp [none, sum, announcedBy]
  cases event with
  | run role =>
    change SetOnce (past ++ [(s.run role).2]) (s.run role).1
    rw [SignalingSession.run]
    split_ifs with started sends
    · exact once.concat fun _ => le_of_eq (Nat.zero_add _)
    · exact @idle role _ [.setLocalDescription] rfl (le_refl _)
    · exact @idle role _ [] rfl (le_refl _)
  | announce role announced sendSucceeds => exact setOnce_announce once role announced sendSucceeds
  | deliver role datagram again completed =>
    obtain rfl : again = false := single
    exact setOnce_deliver once role datagram completed
  | lose role datagram => exact @idle role _ [] rfl (sum_erase datagram _)
  | stop role => exact @idle role _ [] rfl (le_refl _)

private theorem setOnce_outputs {events : List SignalingEvent} (single : ∀ event ∈ events, event.Once) :
    SetOnce (signalingMachine.outputs {} events) (signalingMachine.final {} events) := by
  have start : SetOnce [] {} := by
    intro role
    cases role <;> exact le_refl _
  exact @Transducer.invariant _ _ _ signalingMachine SetOnce (fun _ _ event => event.Once)
    (fun past s event once single => setOnce_step once single) [] {} events start
    (signalingMachine.everywhere_of_forall single)

/-! ## The negotiation -/

/-- Of a list with one description there is only one call that sets it. -/
private theorem description_unique {signals : List LocalSignal} (one : signals.countP LocalSignal.isDescription ≤ 1)
    {first second : LocalSignal} (left : first ∈ signals) (right : second ∈ signals)
    (isFirst : first.isDescription = true) (isSecond : second.isDescription = true) : first = second := by
  rw [List.countP_eq_length_filter] at one
  have member {signal : LocalSignal} (inside : signal ∈ signals) (description : signal.isDescription = true) :
      signal ∈ signals.filter LocalSignal.isDescription := List.mem_filter.mpr ⟨inside, description⟩
  match all : signals.filter LocalSignal.isDescription, one, member left isFirst, member right isSecond with
  | [only], _, here, there => exact (List.mem_singleton.mp here).trans (List.mem_singleton.mp there).symm

private theorem description_of_setsRemote {signal : LocalSignal} {call : PeerCall} (member : call ∈ signal.calls role)
    (sets : call.setsRemote = true) :
    ∃ type sdp, signal = .description type sdp ∧ call = .setRemoteDescription sdp type := by
  cases signal with
  | description type sdp =>
    rcases List.mem_cons.mp member with rfl | answers
    · exact ⟨type, sdp, rfl, rfl⟩
    · split_ifs at answers
      · obtain rfl := List.mem_singleton.mp answers
        contradiction
      · contradiction
  | candidate mid line =>
    obtain rfl := List.mem_singleton.mp member
    contradiction

/-- However the network loses, repeats and reorders the datagrams, however the two sides take turns, and whichever calls
throw: a peer connection is told only what the other one has announced; the sender makes one offer and answers nothing;
the receiver answers no more often than it has taken an offer, and every description that it takes is that one offer.
If no datagram comes twice, each side takes one description at most, and the receiver answers once. -/
theorem negotiation_safe {events : List SignalingEvent} (told : DescribesWhenTold events) :
    let shown := signalingMachine.outputs {} events
    (∀ role, ∀ call ∈ callsAt role shown, call = .setLocalDescription ∨
        ∃ signal ∈ announcedBy role.other shown, call ∈ signal.calls role) ∧
      ((callsAt .sender shown).count .setLocalDescription ≤ 1 ∧
        (announcedBy .sender shown).countP LocalSignal.isDescription ≤ 1) ∧
      ((callsAt .receiver shown).count .setLocalDescription ≤ (callsAt .receiver shown).countP PeerCall.takesOffer ∧
        (announcedBy .receiver shown).countP LocalSignal.isDescription ≤
          (callsAt .receiver shown).count .setLocalDescription) ∧
      (∀ call ∈ callsAt .receiver shown, ∀ call' ∈ callsAt .receiver shown,
        call.setsRemote = true → call'.setsRemote = true → call = call') ∧
      ((∀ event ∈ events, event.Once) →
        (∀ role, (callsAt role shown).countP PeerCall.setsRemote ≤ 1) ∧
          (callsAt .receiver shown).count .setLocalDescription ≤ 1) := by
  intro shown
  have negotiates := negotiates_outputs told
  have offers : (callsAt .sender shown).count .setLocalDescription ≤ 1 := by
    rw [negotiates.offers]
    split_ifs
    · exact le_refl _
    · exact Nat.zero_le _
  have announced (role : Role) : (announcedBy role shown).countP LocalSignal.isDescription ≤
      (callsAt role shown).count .setLocalDescription := negotiates.announced role
  have offer := (announced .sender).trans offers
  refine ⟨negotiates.told, ⟨offers, offer⟩, ⟨negotiates.answers, announced .receiver⟩, ?_, fun single => ?_⟩
  · intro call here call' there sets sets'
    obtain own | ⟨signal, announced, calls⟩ := negotiates.told .receiver call here
    · rw [own] at sets
      contradiction
    obtain own | ⟨signal', announced', calls'⟩ := negotiates.told .receiver call' there
    · rw [own] at sets'
      contradiction
    obtain ⟨type, sdp, rfl, rfl⟩ := description_of_setsRemote calls sets
    obtain ⟨type', sdp', rfl, rfl⟩ := description_of_setsRemote calls' sets'
    have same := description_unique offer announced announced' rfl rfl
    cases same
    rfl
  · have once := setOnce_outputs single
    have taken (role : Role) : (callsAt role shown).countP PeerCall.setsRemote ≤
        (announcedBy role.other shown).countP LocalSignal.isDescription := (Nat.le_add_right _ _).trans (once role)
    have answers : (callsAt .receiver shown).count .setLocalDescription ≤ 1 := by
      apply negotiates.answers.trans
      apply le_trans ?_ ((taken .receiver).trans offer)
      apply List.countP_mono_left
      intro call _ takes
      cases call with
      | setRemoteDescription => rfl
      | _ => exact absurd takes Bool.false_ne_true
    refine ⟨fun role => ?_, answers⟩
    cases role with
    | sender => exact (taken .sender).trans ((announced .receiver).trans answers)
    | receiver => exact (taken .receiver).trans offer

def offered : AnnouncedSignal := ⟨.description offerType [118], by rintro _ _ ⟨⟩; decide⟩

def answered : AnnouncedSignal := ⟨.description (ascii ['a', 'n', 's', 'w', 'e', 'r']) [119], by rintro _ _ ⟨⟩; decide⟩

/-- An offer and its answer. -/
def answeredOffer : List SignalingEvent :=
  [.run .sender, .run .receiver, .announce .sender offered true, .deliver .receiver offered.signal.text false 2,
    .announce .receiver answered true, .deliver .sender answered.signal.text false 2]

/-- Each side takes one description. -/
theorem negotiation_safe_answered :
    let shown := signalingMachine.outputs {} answeredOffer
    (callsAt .receiver shown).count .setLocalDescription = 1 ∧ (callsAt .sender shown).countP PeerCall.setsRemote = 1 ∧
      (callsAt .sender shown).countP PeerCall.setsRemote ≤ 1 := by
  have told : DescribesWhenTold answeredOffer := by decide +kernel
  have single : ∀ event ∈ answeredOffer, event.Once := by
    simp [answeredOffer, SignalingEvent.Once]
  obtain ⟨_, _, _, _, once⟩ := negotiation_safe told
  exact ⟨by decide +kernel, by decide +kernel, (once single).1 .sender⟩

/-- The offer comes twice and is answered twice, and the sender takes both answers. -/
example :
    let events := [.run .sender, .run .receiver, .announce .sender offered true,
      .deliver .receiver offered.signal.text true 2, .deliver .receiver offered.signal.text false 2,
      .announce .receiver answered true, .announce .receiver answered true,
      .deliver .sender answered.signal.text false 2, .deliver .sender answered.signal.text false 2]
    ((callsAt .receiver (signalingMachine.outputs {} events)).count .setLocalDescription,
      (callsAt .sender (signalingMachine.outputs {} events)).countP PeerCall.setsRemote) = (2, 2) := by
  decide +kernel

end WeakNetVideo
