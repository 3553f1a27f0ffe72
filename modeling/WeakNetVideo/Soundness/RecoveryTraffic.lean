import WeakNetVideo.Library.Spaced
import WeakNetVideo.Model.Recovery
import WeakNetVideo.Soundness.SentStream

/-! # The traffic of a recovery

The recovery loop of the receiver asks for a keyframe every quarter of a second at most, and only when it has found
the synchronization lost. The sender answers with keyframes, and as long as it stays in recovery mode these are a
quarter of a second apart too, however many requests come.
-/

namespace WeakNetVideo

/-! ## Requests -/

/-- The time at which a step ends a request: that of the test behind it. -/
def requestTime (s : Protocol) : ProtocolEvent → Option ℤ
  | .send _ => s.request
  | _ => none

/-- The times of the requests of a run. -/
def requestTimes (rtc : Rtc) (pli : Message) (s : Protocol) (events : List ProtocolEvent) : List ℤ :=
  (protocolMachine rtc pli).marks requestTime s events

variable {rtc : Rtc} {pli : Message} {recoveryTimeoutMs : ℤ} {events : List ProtocolEvent} {s : Protocol}

/-- A test of the recovery loop has found the synchronization lost. -/
def FoundLost (rtc : Rtc) (pli : Message) (recoveryTimeoutMs : ℤ) (events : List ProtocolEvent) (atUs : ℤ) : Prop :=
  ∃ before rest, events = before ++ .test atUs true :: rest ∧
    ((protocolMachine rtc pli).final (.new recoveryTimeoutMs) before).receiver.needsKeyframe = true

private theorem FoundLost.concat {atUs : ℤ} (found : FoundLost rtc pli recoveryTimeoutMs events atUs)
    (event : ProtocolEvent) : FoundLost rtc pli recoveryTimeoutMs (events ++ [event]) atUs := by
  obtain ⟨before, rest, rfl, lost⟩ := found
  exact ⟨before, rest ++ [event], by simp, lost⟩

/-- The requests so far, and the one that waits to be sent. -/
private structure Requesting (found : ℤ → Prop) (times : List ℤ) (s : Protocol) : Prop where
  last : s.lastPliUs = times.getLastD 0
  spaced : Spaced 250000 (0 :: times)
  waits : ∀ atUs ∈ s.request, s.lastPliUs + 250000 ≤ atUs ∧ found atUs
  found : ∀ atUs ∈ times, found atUs

/-- A step that touches neither the request nor its time. -/
private theorem Requesting.still {found : ℤ → Prop} {times : List ℤ} {t : Protocol}
    (requesting : Requesting found times s) (request : t.request = s.request) (lastPliUs : t.lastPliUs = s.lastPliUs) :
    Requesting found times t :=
  ⟨lastPliUs.trans requesting.last, requesting.spaced, by rw [request, lastPliUs]; exact requesting.waits,
    requesting.found⟩

/-- The request that is sent is late enough. -/
private theorem requesting_send {found : ℤ → Prop} {times : List ℤ} (requesting : Requesting found times s)
    (outcome : RequestOutcome) :
    Requesting found (times ++ (requestTime s (.send outcome)).toList) (s.send pli outcome) := by
  rw [requestTime, Protocol.send]
  cases request : s.request with
  | none =>
    rw [Option.toList_none, List.append_nil]
    exact requesting.still rfl rfl
  | some atUs =>
    obtain ⟨late, lost⟩ := requesting.waits atUs request
    refine ⟨?_, ?_, fun _ waits => absurd waits (by simp), fun time member => ?_⟩
    · simp
    · apply requesting.spaced.concat
      intro last member
      have same := requesting.last
      rw [List.getLastD_eq_getLast?] at same
      rw [List.getLast?_cons, Option.mem_some_iff] at member
      omega
    · rcases List.mem_append.mp member with earlier | here
      · exact requesting.found time earlier
      · obtain rfl := List.mem_singleton.mp here
        exact lost

private theorem requesting_run (rtc : Rtc) (pli : Message) (recoveryTimeoutMs : ℤ) (events : List ProtocolEvent) :
    Requesting (FoundLost rtc pli recoveryTimeoutMs events) (requestTimes rtc pli (.new recoveryTimeoutMs) events)
      ((protocolMachine rtc pli).final (.new recoveryTimeoutMs) events) := by
  induction events using List.reverseRecOn with
  | nil => exact ⟨rfl, List.IsChain.singleton 0, fun _ waits => absurd waits (by simp [Protocol.new]),
      fun _ member => absurd member List.not_mem_nil⟩
  | append_singleton events event ih =>
    have requesting : Requesting (FoundLost rtc pli recoveryTimeoutMs (events ++ [event]))
        (requestTimes rtc pli (.new recoveryTimeoutMs) events)
        ((protocolMachine rtc pli).final (.new recoveryTimeoutMs) events) :=
      ⟨ih.last, ih.spaced, fun atUs waits => (ih.waits atUs waits).imp_right fun found => found.concat event,
        fun atUs member => (ih.found atUs member).concat event⟩
    rw [requestTimes, Transducer.marks_concat, Transducer.final_append, Transducer.final_cons, Transducer.final_nil]
    cases event with
    | send outcome => exact requesting_send requesting outcome
    | test atUs trackOpen =>
      change Requesting _ (_ ++ []) (Protocol.test _ atUs trackOpen)
      rw [List.append_nil, Protocol.test]
      split_ifs with asks
      · obtain ⟨_, opened, lost, late⟩ := asks
        refine ⟨requesting.last, requesting.spaced, fun time waits => ?_, requesting.found⟩
        obtain rfl := Option.some.inj waits
        exact ⟨Int.add_le_of_le_sub_left late, events, [], by rw [opened], lost⟩
      · exact requesting
    | receiver event =>
      change Requesting _ (_ ++ []) _
      rw [List.append_nil]
      exact requesting.still rfl rfl
    | deliver messages =>
      change Requesting _ (_ ++ []) (Protocol.deliver _ messages)
      rw [List.append_nil, Protocol.deliver]
      split_ifs
      · exact requesting.still rfl rfl
      · exact requesting
    | lose messages =>
      change Requesting _ (_ ++ []) _
      rw [List.append_nil]
      exact requesting.still rfl rfl

/-- In every run of the protocol, requests are a quarter of a second apart, whether they are sent or fail, so there
is at most one for each quarter of a second of any window; and behind each is a test that found the
synchronization lost. -/
theorem requests_spaced (rtc : Rtc) (pli : Message) (recoveryTimeoutMs : ℤ) (events : List ProtocolEvent) :
    Spaced 250000 (0 :: requestTimes rtc pli (.new recoveryTimeoutMs) events) ∧
      (∀ (low : ℤ) (n : ℕ), ((requestTimes rtc pli (.new recoveryTimeoutMs) events).filter fun atUs =>
        decide (low ≤ atUs ∧ atUs < low + n • 250000)).length ≤ n) ∧
      ∀ atUs ∈ requestTimes rtc pli (.new recoveryTimeoutMs) events,
        FoundLost rtc pli recoveryTimeoutMs events atUs := by
  have requesting := requesting_run rtc pli recoveryTimeoutMs events
  have own := requesting.spaced.sublist (by decide) (List.sublist_cons_self 0 _)
  exact ⟨requesting.spaced, fun low n => own.length_filter_le (by decide) low n, requesting.found⟩

/-! ## Keyframes -/

/-- The frame that a step sends, and the time at which its turn began. -/
def sentTurn (s : VideoSender) : VideoSenderEvent → Option (EncodedVideoFrame × ℤ)
  | .send .sent _ =>
    match s.turn with
    | .encoded frame atUs => some (frame, atUs)
    | _ => none
  | _ => none

/-- The frames that a run sends. -/
def sentTurns (rtc : Rtc) (s : VideoSender) (events : List VideoSenderEvent) : List (EncodedVideoFrame × ℤ) :=
  (videoSenderMachine rtc).marks sentTurn s events

/-- The sender is told nothing that ends the recovery, and its clock is a running one. -/
def StaysInRecovery : VideoSenderEvent → Prop
  | .storeRecoveryMode recoveryMode => recoveryMode = true
  | .beginTurn atUs => 0 < atUs
  | _ => True

/-- A turn that may send: it began late enough behind the last frame. -/
private def Due (sent : List (EncodedVideoFrame × ℤ)) (atUs : ℤ) : Prop :=
  0 < atUs ∧ ∀ last ∈ sent.getLast?, last.2 + 250000 ≤ atUs

/-- The frames sent in recovery mode so far, and the turn that the loop is in. -/
private structure Recovering (sent : List (EncodedVideoFrame × ℤ)) (s : VideoSender) : Prop where
  mode : s.flags.recoveryMode = true
  last : ∀ last ∈ sent.getLast?, last.2 ≠ 0 ∧ s.lastRecoveryFrameUs = last.2
  admitted : ∀ profile atUs, s.turn = .admitted profile atUs → Due sent atUs
  decided : ∀ profile atUs forceKeyframe, s.turn = .decided profile atUs forceKeyframe →
    forceKeyframe = true ∧ Due sent atUs
  encoded : ∀ frame atUs, s.turn = .encoded frame atUs → frame.keyframe = true ∧ Due sent atUs
  spaced : Spaced 250000 (sent.map Prod.snd)
  keyframes : ∀ turn ∈ sent, turn.1.keyframe = true

variable {sent : List (EncodedVideoFrame × ℤ)} {sender next : VideoSender} {event : VideoSenderEvent}
  {senderEvents : List VideoSenderEvent}

/-- A store leaves the turn. -/
private theorem Recovering.stores (recovering : Recovering sent sender) (mode : next.flags.recoveryMode = true)
    (frameUs : next.lastRecoveryFrameUs = sender.lastRecoveryFrameUs) (turn : next.turn = sender.turn) :
    Recovering sent next :=
  ⟨mode, fun last member => frameUs ▸ recovering.last last member, by rw [turn]; exact recovering.admitted,
    by rw [turn]; exact recovering.decided, by rw [turn]; exact recovering.encoded, recovering.spaced,
    recovering.keyframes⟩

/-- Back at the top nothing is under way. -/
private theorem Recovering.top (recovering : Recovering sent sender) (mode : next.flags.recoveryMode = true)
    (frameUs : next.lastRecoveryFrameUs = sender.lastRecoveryFrameUs) (turn : next.turn = .top) :
    Recovering sent next :=
  ⟨mode, fun last member => frameUs ▸ recovering.last last member, by simp [turn], by simp [turn], by simp [turn],
    recovering.spaced, recovering.keyframes⟩

private theorem recovering_beginTurn (recovering : Recovering sent sender) {atUs : ℤ} (positive : 0 < atUs) :
    Recovering sent (sender.beginTurn atUs) := by
  rw [VideoSender.beginTurn]
  split
  next here =>
    split_ifs with idle early
    · exact recovering
    · exact recovering
    · refine ⟨recovering.mode, recovering.last, fun profile time turn => ?_, by simp, by simp, recovering.spaced,
        recovering.keyframes⟩
      obtain ⟨_, rfl⟩ := SendTurn.admitted.inj turn
      refine ⟨positive, fun last member => ?_⟩
      obtain ⟨nonzero, same⟩ := recovering.last last member
      by_contra close
      exact early ⟨recovering.mode, by omega, by omega⟩
  next => exact recovering

private theorem recovering_exchange (recovering : Recovering sent sender) : Recovering sent sender.exchange.1 := by
  rw [VideoSender.exchange]
  split
  next profile atUs here =>
    split_ifs
    · exact recovering.top recovering.mode rfl rfl
    · refine ⟨recovering.mode, recovering.last, by simp, fun other time force turn => ?_, by simp,
        recovering.spaced, recovering.keyframes⟩
      obtain ⟨_, rfl, rfl⟩ := SendTurn.decided.inj turn
      exact ⟨by rw [recovering.mode, Bool.or_true], recovering.admitted profile atUs here⟩
  next => exact recovering

private theorem recovering_encode (recovering : Recovering sent sender) (reply : EncoderReply) :
    Recovering sent (sender.encode reply) := by
  rw [VideoSender.encode]
  split
  next profile atUs forceKeyframe reader here file =>
    obtain ⟨forced, due⟩ := recovering.decided profile atUs forceKeyframe here
    split
    next ended => exact recovering.top recovering.mode rfl rfl
    next made =>
      refine ⟨recovering.mode, recovering.last, by simp, by simp, fun frame time turn => ?_, recovering.spaced,
        recovering.keyframes⟩
      obtain ⟨rfl, rfl⟩ := SendTurn.encoded.inj turn
      exact ⟨(nextFrame_some (congrArg Prod.snd made)).2.1 forced, due⟩
  next => exact recovering

/-- A frame that goes out is late enough, and the next one counts from it. -/
private theorem recovering_send (recovering : Recovering sent sender) (outcome : SendOutcome)
    (messages : List MessagePtr) : Recovering (sent ++ (sentTurn sender (.send outcome messages)).toList)
      (sender.send rtc outcome messages).1 := by
  rw [VideoSender.send]
  split
  next frame atUs here =>
    obtain ⟨keyframe, positive, late⟩ := recovering.encoded frame atUs here
    cases outcome with
    | sent =>
      simp only [if_true, sentTurn, here, Option.toList_some]
      refine ⟨recovering.mode, fun last member => ?_, by simp, by simp, by simp, ?_, fun turn member => ?_⟩
      · rw [List.getLast?_concat, Option.mem_some_iff] at member
        subst member
        exact ⟨Int.ne_of_gt positive, if_pos recovering.mode⟩
      · rw [List.map_append, List.map_singleton]
        apply recovering.spaced.concat
        intro last member
        rw [List.getLast?_map, Option.mem_map] at member
        obtain ⟨turn, there, rfl⟩ := member
        exact late turn there
      · rcases List.mem_append.mp member with earlier | own
        · exact recovering.keyframes turn earlier
        · obtain rfl := List.mem_singleton.mp own
          exact keyframe
    | threwBefore =>
      simp only [sentTurn, Option.toList_none, List.append_nil]
      exact recovering.top recovering.mode rfl rfl
    | threwBehind =>
      simp only [sentTurn, Option.toList_none, List.append_nil]
      exact recovering.top recovering.mode rfl rfl
  next other =>
    have none : sentTurn sender (.send outcome messages) = none := by
      cases outcome with
      | sent =>
        rw [sentTurn]
        split
        next frame atUs here => exact absurd here (other frame atUs)
        next => rfl
      | threwBefore | threwBehind => rfl
    rw [none, Option.toList_none, List.append_nil]
    exact recovering

private theorem recovering_step (rtc : Rtc) (recovers : StaysInRecovery event) (recovering : Recovering sent sender) :
    Recovering (sent ++ (sentTurn sender event).toList) (sender.step rtc event).1 := by
  cases event with
  | send outcome messages => exact recovering_send recovering outcome messages
  | beginTurn atUs => exact (List.append_nil sent).symm ▸ recovering_beginTurn recovering recovers
  | exchange => exact (List.append_nil sent).symm ▸ recovering_exchange recovering
  | encode reply => exact (List.append_nil sent).symm ▸ recovering_encode recovering reply
  | updateProfile profile =>
    change Recovering (sent ++ []) (sender.updateProfile profile)
    rw [List.append_nil, VideoSender.updateProfile]
    split
    · exact recovering
    · exact recovering.stores recovering.mode rfl rfl
  | storeRecoveryMode recoveryMode => exact (List.append_nil sent).symm ▸ recovering.stores recovers rfl rfl
  | raiseForceKeyframe | trackOpened | trackClosed | stop =>
    exact (List.append_nil sent).symm ▸ recovering.stores recovering.mode rfl rfl

/-- As long as the sender stays in recovery mode, the frames that it sends from the top of a turn on are keyframes, a
quarter of a second apart, and so at most one for each quarter of a second of any window. -/
theorem recovery_frames_spaced (rtc : Rtc) (recoveryMode : sender.flags.recoveryMode = true)
    (top : sender.turn = .top) (recovers : ∀ event ∈ senderEvents, StaysInRecovery event) :
    (∀ turn ∈ sentTurns rtc sender senderEvents, turn.1.keyframe = true) ∧
      Spaced 250000 ((sentTurns rtc sender senderEvents).map Prod.snd) ∧
      ∀ (low : ℤ) (n : ℕ), (((sentTurns rtc sender senderEvents).map Prod.snd).filter fun atUs =>
        decide (low ≤ atUs ∧ atUs < low + n • 250000)).length ≤ n := by
  have recovering : Recovering (sentTurns rtc sender senderEvents)
      ((videoSenderMachine rtc).final sender senderEvents) :=
    (videoSenderMachine rtc).marks_invariant sentTurn
      (fun _ _ _ recovers recovering => recovering_step rtc recovers recovering)
      ⟨recoveryMode, by simp, by simp [top], by simp [top], by simp [top], Spaced.nil _, by simp⟩ recovers
  exact ⟨recovering.keyframes, recovering.spaced,
    fun low n => recovering.spaced.length_filter_le (by decide) low n⟩

/-- Two frames, and between them a turn that comes too early. -/
def answeredRequest : List VideoSenderEvent :=
  [.beginTurn 1000000, .exchange, .encode keyframeWhenForced, .send .sent [some (Rtp.packet 1 true [0x65])],
    .beginTurn 1100000, .exchange, .raiseForceKeyframe, .beginTurn 1250000, .exchange, .encode keyframeWhenForced,
    .send .sent [some (Rtp.packet 2 true [0x65])]]

/-- A sender that has been asked for a keyframe. -/
private def asked : VideoSender :=
  (videoSenderMachine .rfc5761).final (.start true) (.trackOpened :: keyframeRequestedStores)

/-- Both are keyframes. -/
theorem recovery_frames_spaced_answered : (sentTurns .rfc5761 asked answeredRequest).map Prod.snd = [1000000, 1250000] ∧
    ∀ turn ∈ sentTurns .rfc5761 asked answeredRequest, turn.1.keyframe = true := by
  have recovers : ∀ event ∈ answeredRequest, StaysInRecovery event := by
    simp [answeredRequest, StaysInRecovery]
  exact ⟨by decide +kernel, (recovery_frames_spaced .rfc5761 (by decide +kernel) (by decide +kernel) recovers).1⟩

end WeakNetVideo
