import WeakNetVideo.Model.VideoSender

/-! # The sent stream

A frame is encoded from the one encoded before it, and the force flag is spent before a frame is encoded.
A send that fails loses both the frame and the flag it was encoded for. The stream can be decoded as it is
sent exactly when the frame sent right behind a failure is a keyframe.
-/

namespace WeakNetVideo

/-- The frame of a call of `send_frame`, with the result of the call. -/
def SenderShown.attempted : SenderShown → Option (EncodedVideoFrame × Bool)
  | .attempt frame _ sent _ => some (frame, sent)
  | _ => none

/-- All frames that were encoded and passed to `send_frame`, with the results. -/
def attempts (shown : List SenderShown) : List (EncodedVideoFrame × Bool) :=
  shown.filterMap SenderShown.attempted

/-- The next frame sent whose force decision comes behind. -/
def nextSent : Bool → List SenderShown → Option EncodedVideoFrame
  | _, [] => none
  | _, .decision _ :: rest => nextSent true rest
  | true, .attempt frame _ true _ :: _ => some frame
  | decided, _ :: rest => nextSent decided rest

/-- What a receiver that decodes the sent frames one by one relies on: a frame is a keyframe, or it was
encoded right behind the frame sent before it, in the same epoch; and a force flag that is up makes the
next frame a keyframe. -/
structure DecodableAsSent (rtc : Rtc) (s : VideoSender) (events : List VideoSenderEvent) : Prop where
  chained : ∀ before frame after,
    attempts ((videoSenderMachine rtc).outputs s events) = before ++ (frame, true) :: after →
      frame.keyframe = true ∨
        ∃ previous, before.getLast? = some (previous, true) ∧ previous.epoch = frame.epoch
  honoured : ∀ before rest, events = before ++ rest →
    ((videoSenderMachine rtc).final s before).flags.forceKeyframe = true →
      ∀ frame ∈ nextSent false
          ((videoSenderMachine rtc).outputs ((videoSenderMachine rtc).final s before) rest),
        frame.keyframe = true

/-- The last call of `send_frame` has failed. -/
def LastFailed (past : List SenderShown) : Prop :=
  ∃ frame, (attempts past).getLast? = some (frame, false)

/-- A frame that is sent right behind a failure is a keyframe. -/
def RestartsWithKeyframe (past : List SenderShown) (s : VideoSender) : VideoSenderEvent → Prop
  | .send .sent _ => LastFailed past → ∀ frame atUs, s.turn = .encoded frame atUs → frame.keyframe = true
  | _ => True

/-! ## What a step can do -/

/-- A store leaves the turn; the loop waits at its top, takes the force decision, meets the end of the
file, encodes a frame or sends it. -/
inductive SenderMove (s : VideoSender) : VideoSenderEvent → VideoSender → SenderShown → Prop
  | stores {event t} (reader : t.fileReader = s.fileReader) (turn : t.turn = s.turn)
    (raised : s.flags.forceKeyframe = true → t.flags.forceKeyframe = true) :
    SenderMove s event t .nothing
  | admits {atUs t} (here : s.turn = .top) (reader : t.fileReader = s.fileReader)
    (flags : t.flags = s.flags) (turn : t.turn = .admitted s.profile atUs) :
    SenderMove s (.beginTurn atUs) t .nothing
  | breaks {profile atUs t} (here : s.turn = .admitted profile atUs)
    (reader : t.fileReader = s.fileReader) (flags : t.flags = s.flags) (turn : t.turn = .top) :
    SenderMove s .exchange t .nothing
  | exchanges {profile atUs t} (here : s.turn = .admitted profile atUs)
    (reader : t.fileReader = s.fileReader)
    (turn : t.turn = .decided profile atUs (s.flags.forceKeyframe || s.flags.recoveryMode)) :
    SenderMove s .exchange t (.decision (s.flags.forceKeyframe || s.flags.recoveryMode))
  | ends {reply profile atUs forceKeyframe t} {reader : VideoFileReader}
    (here : s.turn = .decided profile atUs forceKeyframe) (file : t.fileReader = some reader.reset)
    (raised : t.flags.forceKeyframe = true) (turn : t.turn = .top) :
    SenderMove s (.encode reply) t .nothing
  | encodes {reply profile atUs forceKeyframe frame t} {reader : VideoFileReader}
    (here : s.turn = .decided profile atUs forceKeyframe) (file : s.fileReader = some reader)
    (made : (reader.nextFrame reply profile forceKeyframe).2 = some frame)
    (file' : t.fileReader = some (reader.nextFrame reply profile forceKeyframe).1)
    (flags : t.flags = s.flags) (turn : t.turn = .encoded frame atUs) :
    SenderMove s (.encode reply) t .nothing
  | sends {outcome messages frame atUs timestamp packets t} (here : s.turn = .encoded frame atUs)
    (reader : t.fileReader = s.fileReader) (flags : t.flags = s.flags) (turn : t.turn = .top) :
    SenderMove s (.send outcome messages) t
      (.attempt frame timestamp (decide (outcome = .sent)) packets)

variable {rtc : Rtc} {s t : VideoSender} {event : VideoSenderEvent} {shown : SenderShown}
  {past : List SenderShown} {events : List VideoSenderEvent}

private theorem SenderMove.still (s : VideoSender) (event : VideoSenderEvent) : SenderMove s event s .nothing :=
  .stores rfl rfl id

@[simp] theorem videoSenderMachine_step (rtc : Rtc) (s : VideoSender) (event : VideoSenderEvent) :
    (videoSenderMachine rtc).step s event = s.step rtc event := rfl

private theorem senderMove_beginTurn (s : VideoSender) (atUs : ℤ) :
    SenderMove s (.beginTurn atUs) (s.beginTurn atUs) .nothing := by
  rw [VideoSender.beginTurn]
  split
  next here =>
    split_ifs
    · exact .still s _
    · exact .still s _
    · exact .admits here rfl rfl rfl
  next => exact .still s _

private theorem senderMove_exchange (s : VideoSender) : SenderMove s .exchange s.exchange.1 s.exchange.2 := by
  rw [VideoSender.exchange]
  split
  next here =>
    split_ifs
    · exact .breaks here rfl rfl rfl
    · exact .exchanges here rfl rfl
  next => exact .still s _

private theorem senderMove_encode (s : VideoSender) (reply : EncoderReply) :
    SenderMove s (.encode reply) (s.encode reply) .nothing := by
  rw [VideoSender.encode]
  split
  next profile atUs forceKeyframe reader here file =>
    split
    next ended => exact .ends here rfl rfl rfl
    next made =>
      exact .encodes here file (congrArg Prod.snd made) (congrArg some (congrArg Prod.fst made).symm) rfl rfl
  next => exact .still s _

private theorem senderMove_send (rtc : Rtc) (s : VideoSender) (outcome : SendOutcome) (messages : List MessagePtr) :
    SenderMove s (.send outcome messages) (s.send rtc outcome messages).1 (s.send rtc outcome messages).2 := by
  rw [VideoSender.send]
  split
  next here =>
    by_cases sent : outcome = .sent
    · simp only [sent, if_true]
      exact .sends here rfl rfl rfl
    · simp only [if_neg sent]
      have move := @SenderMove.sends s outcome messages
      simp only [decide_eq_false sent] at move
      exact move here rfl rfl rfl
  next => exact .still s _

theorem senderMove_step (rtc : Rtc) (s : VideoSender) (event : VideoSenderEvent) :
    SenderMove s event (s.step rtc event).1 (s.step rtc event).2 := by
  cases event with
  | updateProfile profile =>
    change SenderMove s _ (s.updateProfile profile) .nothing
    rw [VideoSender.updateProfile]
    split
    · exact .still s _
    · exact .stores rfl rfl fun raised => by simp [raised]
  | storeRecoveryMode recoveryMode => exact .stores rfl rfl id
  | raiseForceKeyframe => exact .stores rfl rfl fun _ => rfl
  | trackOpened => exact .stores rfl rfl id
  | trackClosed => exact .stores rfl rfl id
  | stop => exact .stores rfl rfl id
  | beginTurn atUs => exact senderMove_beginTurn s atUs
  | exchange => exact senderMove_exchange s
  | encode reply => exact senderMove_encode s reply
  | send outcome messages => exact senderMove_send rtc s outcome messages

/-- A forced frame is a keyframe, and so is the first one of an encoder. -/
theorem nextFrame_some {reader : VideoFileReader} {reply : EncoderReply} {profile : VideoProfile}
    {forceKeyframe : Bool} {frame : EncodedVideoFrame}
    (made : (reader.nextFrame reply profile forceKeyframe).2 = some frame) :
    frame.epoch = (reader.nextFrame reply profile forceKeyframe).1.epoch ∧
      (forceKeyframe = true → frame.keyframe = true) ∧
      (frame.keyframe = true ∨
        reader.encoderConfigured = true ∧ (reader.nextFrame reply profile forceKeyframe).1 = reader) := by
  simp only [VideoFileReader.nextFrame, Option.map_eq_some_iff] at made ⊢
  obtain ⟨packet, replied, rfl⟩ := made
  refine ⟨rfl, fun forced => ?_, ?_⟩
  · rw [forced, Bool.true_or] at replied
    exact reply.forced packet replied
  · cases outdated : reader.outdated profile with
    | true =>
      rw [outdated, Bool.or_true] at replied
      exact .inl (reply.forced packet replied)
    | false =>
      rw [VideoFileReader.outdated, Bool.or_eq_false_iff, Bool.not_eq_false'] at outdated
      exact .inr ⟨outdated.1, if_neg (by decide)⟩

/-! ## Frames are encoded one from the other -/

private theorem attempts_append (past shown : List SenderShown) :
    attempts (past ++ shown) = attempts past ++ attempts shown := List.filterMap_append

private theorem attempts_quiet (quiet : shown.attempted = none) :
    attempts (past ++ [shown]) = attempts past := by
  simp [attempts, quiet]

private theorem attempts_attempt {attempt : EncodedVideoFrame × Bool} (past : List SenderShown)
    (attempted : shown.attempted = some attempt) : attempts (past ++ [shown]) = attempts past ++ [attempt] := by
  simp [attempts, attempted]

/-- What a step attempts comes before what is attempted behind it. -/
private theorem attempts_outputs (rtc : Rtc) (s : VideoSender) (event : VideoSenderEvent)
    (events : List VideoSenderEvent) : attempts ((videoSenderMachine rtc).outputs s (event :: events)) =
      (s.step rtc event).2.attempted.toList ++
        attempts ((videoSenderMachine rtc).outputs (s.step rtc event).1 events) := by
  rw [Transducer.outputs_cons, videoSenderMachine_step, attempts, List.filterMap_cons]
  cases (s.step rtc event).2.attempted <;> rfl

/-- Some frame of an epoch was the last that was passed to `send_frame`. -/
def LastOfEpoch (past : List SenderShown) (epoch : UInt16) : Prop :=
  ∃ previous sent, (attempts past).getLast? = some (previous, sent) ∧ previous.epoch = epoch

/-- A frame that waits to be sent is a keyframe or was encoded behind the last one, in its epoch; an
encoder that is configured will go on from the last one. -/
structure EncodesInTurn (past : List SenderShown) (s : VideoSender) : Prop where
  goesOn : (∀ frame atUs, s.turn ≠ .encoded frame atUs) → ∀ reader, s.fileReader = some reader →
    reader.encoderConfigured = true → LastOfEpoch past reader.epoch
  waits : ∀ frame atUs, s.turn = .encoded frame atUs →
    (∀ reader, s.fileReader = some reader → frame.epoch = reader.epoch) ∧
      (frame.keyframe = true ∨ LastOfEpoch past frame.epoch)

private theorem lastOfEpoch_quiet {epoch : UInt16} (quiet : shown.attempted = none) :
    LastOfEpoch (past ++ [shown]) epoch ↔ LastOfEpoch past epoch := by
  rw [LastOfEpoch, attempts_quiet quiet, LastOfEpoch]

/-- Between turns and before the frame is encoded the encoder stays as it is. -/
private theorem EncodesInTurn.between (encodes : EncodesInTurn past s) (quiet : shown.attempted = none)
    (reader : t.fileReader = s.fileReader) (here : ∀ frame atUs, s.turn ≠ .encoded frame atUs)
    (there : ∀ frame atUs, t.turn ≠ .encoded frame atUs) : EncodesInTurn (past ++ [shown]) t := by
  constructor
  · intro _ reader' file configured
    rw [lastOfEpoch_quiet quiet]
    exact encodes.goesOn here reader' (reader ▸ file) configured
  · intro frame atUs waits
    exact absurd waits (there frame atUs)

private theorem encodesInTurn_move (encodes : EncodesInTurn past s) (move : SenderMove s event t shown) :
    EncodesInTurn (past ++ [shown]) t := by
  cases move with
  | stores reader turn _ =>
    have quiet (epoch : UInt16) : LastOfEpoch (past ++ [.nothing]) epoch ↔ LastOfEpoch past epoch :=
      lastOfEpoch_quiet rfl
    constructor
    · simp only [reader, turn, quiet]
      exact encodes.goesOn
    · simp only [reader, turn, quiet]
      exact encodes.waits
  | admits here reader _ turn => exact encodes.between rfl reader (by simp [here]) (by simp [turn])
  | breaks here reader _ turn => exact encodes.between rfl reader (by simp [here]) (by simp [turn])
  | exchanges here reader turn => exact encodes.between rfl reader (by simp [here]) (by simp [turn])
  | ends here file _ turn =>
    constructor
    · intro _ reader' file' configured
      obtain rfl := Option.some.inj (file.symm.trans file')
      contradiction
    · intro frame atUs waits
      rw [turn] at waits
      contradiction
  | @encodes reply profile atUs forceKeyframe frame _ reader here file made file' _ turn =>
    obtain ⟨epoch, _, goesOn⟩ := nextFrame_some made
    constructor
    · intro idle
      exact absurd turn (idle frame atUs)
    · intro frame' atUs' waits
      rw [turn] at waits
      cases waits
      refine ⟨fun reader' found => ?_, goesOn.imp_right fun ⟨configured, same⟩ => ?_⟩
      · rw [epoch, Option.some.inj (file'.symm.trans found)]
      · rw [lastOfEpoch_quiet rfl, epoch, same]
        exact encodes.goesOn (by simp [here]) reader file configured
  | sends here reader _ turn =>
    constructor
    · intro _ reader' file _
      rw [LastOfEpoch, attempts_attempt past rfl, List.getLast?_concat]
      exact ⟨_, _, rfl, (encodes.waits _ _ here).1 reader' (reader ▸ file)⟩
    · intro frame atUs waits
      rw [turn] at waits
      contradiction

/-! ## The force flag -/

/-- The next frame will be a keyframe: the flag is up, or has been taken by the turn. -/
def VideoSender.Forced (s : VideoSender) : Prop :=
  match s.turn with
  | .top | .admitted .. => s.flags.forceKeyframe = true
  | .decided _ _ forceKeyframe => forceKeyframe = true
  | .encoded frame _ => frame.keyframe = true

/-- The flag stays up until it is taken. -/
private theorem flag_move (raised : s.flags.forceKeyframe = true) (move : SenderMove s event t shown) :
    t.flags.forceKeyframe = true ∨ ∃ forceKeyframe, shown = .decision forceKeyframe ∧ t.Forced := by
  cases move with
  | stores _ _ kept => exact .inl (kept raised)
  | admits _ _ flags _ => exact .inl (flags ▸ raised)
  | breaks _ _ flags _ => exact .inl (flags ▸ raised)
  | exchanges _ _ turn => exact .inr ⟨_, rfl, by simp [VideoSender.Forced, turn, raised]⟩
  | ends _ _ raised' _ => exact .inl raised'
  | encodes _ _ _ _ flags _ => exact .inl (flags ▸ raised)
  | sends _ _ flags _ => exact .inl (flags ▸ raised)

/-- A forced turn stays so until its frame is sent or lost. -/
private theorem forced_move (forced : s.Forced) (move : SenderMove s event t shown) :
    (shown.attempted = none ∧ t.Forced) ∨
      ∃ frame sent, shown.attempted = some (frame, sent) ∧ frame.keyframe = true := by
  cases move with
  | stores _ turn kept =>
    refine .inl ⟨rfl, ?_⟩
    rw [VideoSender.Forced] at forced ⊢
    rw [turn]
    split at forced <;> simp_all
  | admits here _ flags turn =>
    rw [VideoSender.Forced, here] at forced
    exact .inl ⟨rfl, by rw [VideoSender.Forced, turn, flags]; exact forced⟩
  | breaks here _ flags turn =>
    rw [VideoSender.Forced, here] at forced
    exact .inl ⟨rfl, by rw [VideoSender.Forced, turn, flags]; exact forced⟩
  | exchanges here _ turn =>
    rw [VideoSender.Forced, here] at forced
    exact .inl ⟨rfl, by simp [VideoSender.Forced, turn, forced]⟩
  | ends _ _ raised turn => exact .inl ⟨rfl, by rw [VideoSender.Forced, turn]; exact raised⟩
  | encodes here _ made _ _ turn =>
    rw [VideoSender.Forced, here] at forced
    exact .inl ⟨rfl, by rw [VideoSender.Forced, turn]; exact (nextFrame_some made).2.1 forced⟩
  | sends here _ _ _ =>
    rw [VideoSender.Forced, here] at forced
    exact .inr ⟨_, _, rfl, forced⟩

/-! ## Runs -/

/-- A call of `send_frame` is about the frame of the turn. -/
private theorem attempt_move {frame : EncodedVideoFrame} {sent : Bool} (move : SenderMove s event t shown)
    (attempt : shown.attempted = some (frame, sent)) : ∃ outcome messages atUs,
      event = .send outcome messages ∧ s.turn = .encoded frame atUs ∧ sent = decide (outcome = .sent) := by
  cases move with
  | @sends outcome messages frame' atUs _ _ _ here =>
    obtain ⟨rfl, rfl⟩ := Prod.mk.inj (Option.some.inj attempt)
    exact ⟨outcome, messages, atUs, rfl, here, rfl⟩
  | _ => contradiction

/-- Behind a failure a frame that is sent is a keyframe. -/
private theorem keyframe_of_restarts {frame : EncodedVideoFrame} (restarts : RestartsWithKeyframe past s event)
    (move : SenderMove s event t shown) (attempt : shown.attempted = some (frame, true))
    (failed : LastFailed past) : frame.keyframe = true := by
  obtain ⟨outcome, messages, atUs, rfl, here, sent⟩ := attempt_move move attempt
  obtain rfl := of_decide_eq_true sent.symm
  exact restarts failed frame atUs here

private theorem nextSent_quiet (quiet : shown.attempted = none) (rest : List SenderShown) :
    nextSent true (shown :: rest) = nextSent true rest := by
  cases shown with
  | attempt => contradiction
  | _ => rfl

private theorem nextSent_attempt {frame : EncodedVideoFrame} {sent : Bool}
    (attempt : shown.attempted = some (frame, sent)) (rest : List SenderShown) :
    nextSent true (shown :: rest) = if sent then some frame else nextSent true rest := by
  cases shown with
  | attempt frame' timestamp sent' packets =>
    obtain ⟨rfl, rfl⟩ := Prod.mk.inj (Option.some.inj attempt)
    cases sent' <;> rfl
  | _ => contradiction

private theorem lastFailed_quiet (quiet : shown.attempted = none) (failed : LastFailed past) :
    LastFailed (past ++ [shown]) := by
  rwa [LastFailed, attempts_quiet quiet]

private theorem lastFailed_attempt {frame : EncodedVideoFrame}
    (attempt : shown.attempted = some (frame, false)) : LastFailed (past ++ [shown]) := by
  refine ⟨frame, ?_⟩
  rw [attempts_attempt past attempt, List.getLast?_concat]

/-- From a forced turn on, or behind a failure, the next frame sent is a keyframe. -/
private theorem keyframe_of_forced (owed : s.Forced ∨ LastFailed past)
    (restarts : (videoSenderMachine rtc).Everywhere RestartsWithKeyframe past s events) :
    ∀ frame ∈ nextSent true ((videoSenderMachine rtc).outputs s events), frame.keyframe = true := by
  induction events generalizing s past with
  | nil => exact fun frame none => by contradiction
  | cons event events ih =>
    have move := senderMove_step rtc s event
    rw [Transducer.outputs_cons, videoSenderMachine_step]
    obtain ⟨here, rest⟩ := restarts
    cases attempted : (s.step rtc event).2.attempted with
    | none =>
      rw [nextSent_quiet attempted]
      refine ih ?_ rest
      rcases owed with forced | failed
      · rcases forced_move forced move with ⟨_, forced⟩ | ⟨_, _, some_, _⟩
        · exact .inl forced
        · rw [attempted] at some_
          contradiction
      · exact .inr (lastFailed_quiet attempted failed)
    | some attempt =>
      obtain ⟨frame, sent⟩ := attempt
      rw [nextSent_attempt attempted]
      cases sent with
      | false => exact ih (.inr (lastFailed_attempt attempted)) rest
      | true =>
        rintro _ ⟨⟩
        rcases owed with forced | failed
        · rcases forced_move forced move with ⟨quiet, _⟩ | ⟨_, _, same, keyframe⟩
          · rw [attempted] at quiet
            contradiction
          · rw [attempted] at same
            cases same
            exact keyframe
        · exact keyframe_of_restarts here move attempted failed

private theorem nextSent_before_decision (undecided : ∀ forceKeyframe, shown ≠ .decision forceKeyframe)
    (rest : List SenderShown) : nextSent false (shown :: rest) = nextSent false rest := by
  cases shown with
  | decision forceKeyframe => exact absurd rfl (undecided forceKeyframe)
  | nothing => rfl
  | attempt _ _ sent _ => cases sent <;> rfl

/-- While the flag is up, the next frame sent that is decided later is a keyframe. -/
private theorem keyframe_of_flag (raised : s.flags.forceKeyframe = true)
    (restarts : (videoSenderMachine rtc).Everywhere RestartsWithKeyframe past s events) :
    ∀ frame ∈ nextSent false ((videoSenderMachine rtc).outputs s events), frame.keyframe = true := by
  induction events generalizing s past with
  | nil => exact fun frame none => by contradiction
  | cons event events ih =>
    rw [Transducer.outputs_cons, videoSenderMachine_step]
    by_cases decided : ∃ forceKeyframe, (s.step rtc event).2 = .decision forceKeyframe
    · obtain ⟨forceKeyframe, decided⟩ := decided
      have forced : (s.step rtc event).1.Forced := by
        have move := senderMove_step rtc s event
        rw [decided] at move
        cases move with
        | exchanges _ _ turn => simp [VideoSender.Forced, turn, raised]
      rw [decided]
      exact keyframe_of_forced (.inl forced) restarts.2
    · have undecided := not_exists.mp decided
      rw [nextSent_before_decision undecided]
      refine ih ?_ restarts.2
      rcases flag_move raised (senderMove_step rtc s event) with raised | ⟨_, decision, _⟩
      · exact raised
      · exact absurd decision (undecided _)

/-- Where every restart is a keyframe, frames go on from one another. -/
private theorem chained_of_restarts (encodes : EncodesInTurn past s)
    (restarts : (videoSenderMachine rtc).Everywhere RestartsWithKeyframe past s events) :
    ∀ before frame after,
      attempts ((videoSenderMachine rtc).outputs s events) = before ++ (frame, true) :: after →
        frame.keyframe = true ∨
          ∃ previous, (attempts past ++ before).getLast? = some (previous, true) ∧
            previous.epoch = frame.epoch := by
  induction events generalizing s past with
  | nil =>
    intro before frame after cut
    simp [attempts] at cut
  | cons event events ih =>
    have move := senderMove_step rtc s event
    have later := ih (encodesInTurn_move encodes move) restarts.2
    intro before frame after cut
    rw [attempts_outputs] at cut
    cases attempted : (s.step rtc event).2.attempted with
    | none =>
      rw [attempts_quiet attempted] at later
      rw [attempted] at cut
      exact later before frame after cut
    | some attempt =>
      obtain ⟨first, sent⟩ := attempt
      rw [attempts_attempt past attempted] at later
      rw [attempted, Option.toList_some, List.singleton_append] at cut
      cases before with
      | nil =>
        obtain ⟨here, _⟩ := List.cons.inj cut
        obtain ⟨rfl, rfl⟩ := Prod.mk.inj here
        obtain ⟨_, _, _, _, turn, _⟩ := attempt_move move attempted
        rcases (encodes.waits _ _ turn).2 with keyframe | ⟨previous, sent, last, epoch⟩
        · exact .inl keyframe
        · rw [List.append_nil]
          cases sent with
          | true => exact .inr ⟨previous, last, epoch⟩
          | false => exact .inl (keyframe_of_restarts restarts.1 move attempted ⟨previous, last⟩)
      | cons second before =>
        obtain ⟨rfl, behind⟩ := List.cons.inj cut
        have goesOn := later before frame after behind
        rwa [List.append_assoc] at goesOn

/-- A send that succeeds in the middle of a run is one of its attempts. -/
private theorem attempts_cut {before : List VideoSenderEvent} {frame : EncodedVideoFrame} {atUs : ℤ}
    (messages : List MessagePtr) (rest : List VideoSenderEvent)
    (here : ((videoSenderMachine rtc).final s before).turn = .encoded frame atUs) : ∃ after,
      attempts ((videoSenderMachine rtc).outputs s (before ++ .send .sent messages :: rest)) =
        attempts ((videoSenderMachine rtc).outputs s before) ++ (frame, true) :: after := by
  have attempted : (((videoSenderMachine rtc).final s before).step rtc (.send .sent messages)).2.attempted =
      some (frame, true) := by
    simp [VideoSender.step, VideoSender.send, here, SenderShown.attempted]
  rw [Transducer.outputs_append, attempts_append, attempts_outputs, attempted]
  exact ⟨_, rfl⟩

/-- In every run of the loop, the stream can be decoded as it is sent exactly when every frame that is sent
right behind one whose send failed is a keyframe. -/
theorem decodableAsSent_iff (rtc : Rtc) (inputFile : Bool) (events : List VideoSenderEvent) :
    DecodableAsSent rtc (.start inputFile) events ↔
      (videoSenderMachine rtc).Everywhere RestartsWithKeyframe [] (.start inputFile) events := by
  constructor
  · intro decodable
    rw [Transducer.everywhere_iff_cut]
    rintro before event rest rfl
    unfold RestartsWithKeyframe
    split
    next messages =>
      rintro ⟨failed, last⟩ frame atUs here
      obtain ⟨after, cut⟩ := attempts_cut messages rest here
      rcases decodable.chained _ frame after cut with keyframe | ⟨previous, sent, _⟩
      · exact keyframe
      · rw [List.nil_append, sent] at last
        cases last
    next => trivial
  · intro restarts
    have start : EncodesInTurn [] (.start inputFile) := by
      constructor
      · cases inputFile <;> simp [VideoSender.start]
      · intro frame atUs waits
        contradiction
    constructor
    · simpa [attempts] using chained_of_restarts start restarts
    · rintro before rest rfl raised
      exact keyframe_of_flag raised ((Transducer.everywhere_append _).mp restarts).2

/-! ## A run -/

/-- An encoder that makes a keyframe of a forced frame only. -/
def keyframeWhenForced : EncoderReply where
  packet forced := some ⟨[0, 0, 0, 1, if forced then 0x65 else 0x41], forced⟩
  forced := by simp

/-- The first frame is lost in `send_frame`, and took the force flag with it. -/
private def lostKeyframe : List VideoSenderEvent :=
  [.trackOpened, .beginTurn 1000, .exchange, .encode keyframeWhenForced,
    .send .threwBefore [some (Rtp.packet 1 true [0x65])],
    .beginTurn 2000, .exchange, .encode keyframeWhenForced, .send .sent [some (Rtp.packet 2 true [0x41])]]

/-- The second frame goes out under the first id, and is no keyframe. -/
theorem lostKeyframe_not_decodable :
    (attempts ((videoSenderMachine .rfc5761).outputs (.start true) lostKeyframe)).map
      (fun attempt => (attempt.1.keyframe, attempt.2)) = [(true, false), (false, true)] ∧
    ((videoSenderMachine .rfc5761).final (.start true) lostKeyframe).transport.nextFrameId = 2 ∧
    ¬DecodableAsSent .rfc5761 (.start true) lostKeyframe := by
  refine ⟨by decide +kernel, by decide +kernel, fun decodable => ?_⟩
  rcases decodable.chained [(⟨[0, 0, 0, 1, 0x65], 3000, 1, true⟩, false)] ⟨[0, 0, 0, 1, 0x41], 3000, 1, false⟩ []
    (by decide +kernel) with keyframe | ⟨_, sent, _⟩
  · contradiction
  · simp at sent

end WeakNetVideo
