import WeakNetVideo.Library.Kept
import WeakNetVideo.Proofs.Assembly
import WeakNetVideo.Proofs.Retransmissions
import WeakNetVideo.Soundness.OutputFile
import WeakNetVideo.Soundness.SentStream

/-! # From the encoder to the output file

The encoder makes every frame from the one before it. Frame ids count the frames on the wire, not the frames
that were encoded, so the receiver sees no gap where a frame was lost before it got an id. Where the frame
behind such a loss is a keyframe, everything that the receiver hands on and everything that it writes can be
decoded, whatever the network does.
-/

namespace WeakNetVideo

/-! ## What can be decoded -/

/-- A frame on the wire that comes right behind one that never got there is a keyframe. -/
def RestartsOnWire (sent : List Transmission) : Prop :=
  sent.IsChain fun lost next => lost.onWire = none → next.onWire.isSome = true → next.frame.keyframe = true

/-- The frame holds the packets of the encoded frame at a place, all of them and in order. -/
def EncodedAt (sent : List Transmission) (place : ℕ) (frame : FrameAssembly) : Prop :=
  ∃ transmission whole, sent[place]? = some transmission ∧ transmission.onWire = some whole ∧
    frame.packets = whole.packets.map some

def KeyframeAt (sent : List Transmission) (place : ℕ) : Prop :=
  ∃ transmission, sent[place]? = some transmission ∧ transmission.frame.keyframe = true

def SameEpochAt (sent : List Transmission) (left right : ℕ) : Prop :=
  ∃ first second, sent[left]? = some first ∧ sent[right]? = some second ∧ first.frame.epoch = second.frame.epoch

/-- Each frame is a keyframe, or was encoded right behind the one before it and in its epoch. -/
def ReferencesKept (sent : List Transmission) : Option ℕ → List ℕ → Prop
  | _, [] => True
  | last, place :: rest =>
    (KeyframeAt sent place ∨ ∃ previous, last = some previous ∧ place = previous + 1 ∧
      SameEpochAt sent previous place) ∧ ReferencesKept sent (some place) rest

/-- The frames are encoded frames, and each is a keyframe or has the frame that it was encoded from right
before it. -/
def Decodable (sent : List Transmission) (frames : List FrameAssembly) : Prop :=
  ∃ places, List.Forall₂ (EncodedAt sent) places frames ∧ ReferencesKept sent none places

/-! ## The frames of a run of the sending loop -/

variable {rtc : Rtc} {s : VideoSender} {sent : List Transmission} {frame previous : FrameAssembly}

/-- An encoder that was configured has an epoch, and so has its frame. -/
structure EpochSet (s : VideoSender) : Prop where
  reader : ∀ reader, s.fileReader = some reader → reader.encoderConfigured = true → reader.epoch ≠ 0
  waiting : ∀ frame atUs, s.turn = .encoded frame atUs → frame.epoch ≠ 0

private theorem configureEncoder_epoch (reader : VideoFileReader) (profile : VideoProfile) :
    (reader.configureEncoder profile).epoch ≠ 0 := by
  rw [VideoFileReader.configureEncoder]
  dsimp only
  split_ifs with wrapped
  · decide
  · exact wrapped

private theorem nextFrame_epoch {reader : VideoFileReader} (reply : EncoderReply) (profile : VideoProfile)
    (forceKeyframe : Bool) (set : reader.encoderConfigured = true → reader.epoch ≠ 0) :
    (reader.nextFrame reply profile forceKeyframe).1.epoch ≠ 0 ∧
      ∀ frame ∈ (reader.nextFrame reply profile forceKeyframe).2, frame.epoch ≠ 0 := by
  have epoch : (if reader.outdated profile then reader.configureEncoder profile else reader).epoch ≠ 0 := by
    split_ifs with outdated
    · exact configureEncoder_epoch reader profile
    · simp only [VideoFileReader.outdated, Bool.or_eq_true, Bool.not_eq_true', not_or,
        Bool.not_eq_false] at outdated
      exact set outdated.1
  refine ⟨epoch, fun frame made => ?_⟩
  obtain ⟨packet, _, rfl⟩ := Option.map_eq_some_iff.mp made
  exact epoch

private theorem epochSet_step (rtc : Rtc) (set : EpochSet s) (event : VideoSenderEvent) :
    EpochSet (s.step rtc event).1 := by
  have move := senderMove_step rtc s event
  generalize (s.step rtc event).1 = t, (s.step rtc event).2 = shown at move ⊢
  have idle (reader : t.fileReader = s.fileReader) (turn : ∀ frame atUs, t.turn ≠ .encoded frame atUs) :
      EpochSet t := ⟨reader ▸ set.reader, fun frame atUs waits => absurd waits (turn frame atUs)⟩
  cases move with
  | stores reader turn _ => exact ⟨reader ▸ set.reader, turn ▸ set.waiting⟩
  | admits _ reader _ turn => exact idle reader (by simp [turn])
  | breaks _ reader _ turn => exact idle reader (by simp [turn])
  | exchanges _ reader turn => exact idle reader (by simp [turn])
  | ends _ file _ turn =>
    refine ⟨fun reader found configured => ?_, fun frame atUs waits => absurd (turn.symm.trans waits) (by simp)⟩
    obtain rfl := Option.some.inj (file.symm.trans found)
    contradiction
  | @encodes reply profile atUs forceKeyframe frame _ reader _ file made file' _ turn =>
    obtain ⟨epoch, own⟩ := nextFrame_epoch reply profile forceKeyframe (set.reader reader file)
    refine ⟨fun reader' found _ => ?_, fun frame' atUs' waits => ?_⟩
    · rw [← Option.some.inj (file'.symm.trans found)]
      exact epoch
    · obtain ⟨rfl, _⟩ := SendTurn.encoded.inj (turn.symm.trans waits)
      exact own _ made
  | sends _ reader _ turn => exact idle reader (by simp [turn])

/-- What a run puts on the wire is labelled as it was encoded. -/
private theorem labels_transmissions (set : EpochSet s) (events : List VideoSenderEvent) :
    ∀ transmission ∈ s.transmissions rtc events, ∀ whole, transmission.onWire = some whole →
      whole.epoch = transmission.frame.epoch ∧ whole.keyframe = transmission.frame.keyframe := by
  induction events generalizing s with
  | nil => simp [VideoSender.transmissions]
  | cons event events ih =>
    intro transmission member whole onWire
    rcases List.mem_append.mp member with here | there
    · cases event with
      | send outcome messages =>
        rw [VideoSender.transmission] at here
        split at here
        next frame atUs turn =>
          obtain rfl := Option.some.inj (Option.mem_toList.mp here)
          dsimp only at onWire ⊢
          split_ifs at onWire
          have nonzero := set.waiting frame atUs turn
          rw [Sender.sentFrame] at onWire
          split_ifs at onWire
          obtain rfl := Option.some.inj onWire
          have positive : frame.epoch.toNat ≠ 0 := fun zero => nonzero (UInt16.toNat_inj.mp zero)
          exact ⟨if_pos (Nat.one_le_iff_ne_zero.mpr positive), rfl⟩
        next => contradiction
      | _ => contradiction
    · exact ih (epochSet_step rtc set event) transmission there whole onWire

/-! ## Following frames were encoded one from the other -/

/-- What the list of transmissions of a run is like. -/
structure Transmitted (sent : List Transmission) : Prop where
  numbered : ∀ number whole, (wireFrames sent)[number]? = some whole → whole.frameId = 1 + UInt32.ofNat number
  short : (wireFrames sent).length < 2 ^ 32
  labels : ∀ transmission ∈ sent, ∀ whole, transmission.onWire = some whole →
    whole.epoch = transmission.frame.epoch ∧ whole.keyframe = transmission.frame.keyframe

/-- The frame is one of those on the wire. -/
def OffWire (sent : List Transmission) (frame : FrameAssembly) : Prop :=
  ∃ whole ∈ wireFrames sent, whole.frameId = frame.frameId ∧ Gathers whole frame ∧
    frame.packets = whole.packets.map some

theorem transmitted_start (inputFile : Bool) (events : List VideoSenderEvent)
    (short : (wireFrames ((VideoSender.start inputFile).transmissions rtc events)).length < 2 ^ 32) :
    Transmitted ((VideoSender.start inputFile).transmissions rtc events) := by
  refine ⟨fun number whole found => ?_, short, labels_transmissions ⟨?_, fun _ _ waits => by contradiction⟩ events⟩
  · rw [← sentFrames_handlerRun] at found
    exact frameId_sentFrames rtc _ _ number whole found
  · cases inputFile <;> simp [VideoSender.start]

/-- Where a frame of the wire stands among those encoded. -/
private theorem place_of_offWire (offWire : OffWire sent frame) : ∃ place transmission whole,
    sent[place]? = some transmission ∧ transmission.onWire = some whole ∧
      (wireFrames sent)[Kept.rank Transmission.onWire sent place]? = some whole ∧
        whole.frameId = frame.frameId ∧ Gathers whole frame ∧ frame.packets = whole.packets.map some := by
  obtain ⟨whole, member, id, gathers, packets⟩ := offWire
  obtain ⟨number, found⟩ := List.mem_iff_getElem?.mp member
  obtain ⟨place, transmission, there, onWire, rank⟩ := Kept.exists_place found
  exact ⟨place, transmission, whole, there, onWire, by rw [rank]; exact found, id, gathers, packets⟩

/-- The next id is the next number on the wire. -/
private theorem rank_succ_of_follows (transmitted : Transmitted sent) {left right : ℕ} {first second : SentFrame}
    (foundLeft : (wireFrames sent)[left]? = some first) (foundRight : (wireFrames sent)[right]? = some second)
    (next : second.frameId = first.frameId + 1) : right = left + 1 := by
  have boundLeft := (List.getElem?_eq_some_iff.mp foundLeft).1
  have boundRight := (List.getElem?_eq_some_iff.mp foundRight).1
  have short := transmitted.short
  rw [transmitted.numbered _ _ foundLeft, transmitted.numbered _ _ foundRight, UInt32.add_assoc,
    UInt32.add_right_inj] at next
  have toNat := congrArg UInt32.toNat next
  rw [UInt32.toNat_ofNat_of_lt' (by simp only [UInt32.size]; omega), UInt32.toNat_add,
    UInt32.toNat_ofNat_of_lt' (by simp only [UInt32.size]; omega)] at toNat
  change right = (left + 1) % 2 ^ 32 at toNat
  omega

private theorem keyframeAt_of_restarts (restarts : RestartsOnWire sent) {place : ℕ} {lost next : Transmission}
    (positive : place ≠ 0) (there : sent[place]? = some next) (before : sent[place - 1]? = some lost)
    (never : lost.onWire = none) (onWire : next.onWire.isSome = true) : KeyframeAt sent place := by
  obtain ⟨earlier, rfl⟩ := Nat.exists_eq_succ_of_ne_zero positive
  obtain ⟨insideNext, rfl⟩ := List.getElem?_eq_some_iff.mp there
  obtain ⟨_, rfl⟩ := List.getElem?_eq_some_iff.mp before
  exact ⟨_, there, List.isChain_iff_getElem.mp restarts earlier insideNext never onWire⟩

/-- Frames that go on from one another, keyframes apart, were encoded so. -/
theorem decodable_of_joined (transmitted : Transmitted sent) (restarts : RestartsOnWire sent)
    {frames : List FrameAssembly} (joined : Joined none frames) (offWire : ∀ frame ∈ frames, OffWire sent frame) :
    Decodable sent frames := by
  -- the place of the frame before is kept with its number on the wire
  have goesOn (frames : List FrameAssembly) : ∀ (last : Option FrameAssembly) (lastPlace : Option ℕ),
      Joined last frames → (∀ frame ∈ frames, OffWire sent frame) →
      (∀ frame ∈ last, ∃ place ∈ lastPlace, ∃ transmission whole, sent[place]? = some transmission ∧
        transmission.onWire = some whole ∧
        (wireFrames sent)[Kept.rank Transmission.onWire sent place]? = some whole ∧
        whole.frameId = frame.frameId ∧ Gathers whole frame) →
      ∃ places, List.Forall₂ (EncodedAt sent) places frames ∧ ReferencesKept sent lastPlace places := by
    induction frames with
    | nil => exact fun _ _ _ _ _ => ⟨[], .nil, trivial⟩
    | cons frame frames ih =>
      intro last lastPlace joined offWire behind
      obtain ⟨follows, rest⟩ := joined.head
      obtain ⟨place, transmission, whole, there, onWire, number, id, gathers, packets⟩ :=
        place_of_offWire (offWire frame List.mem_cons_self)
      obtain ⟨places, encoded, kept⟩ := ih (some frame) (some place) rest
        (fun other inside => offWire other (List.mem_cons_of_mem _ inside))
        (by rintro _ ⟨⟩; exact ⟨place, rfl, transmission, whole, there, onWire, number, id, gathers⟩)
      refine ⟨place :: places, .cons ⟨transmission, whole, there, onWire, packets⟩ encoded, ?_, kept⟩
      obtain ⟨epoch, keyframe⟩ := transmitted.labels transmission (List.mem_of_getElem? there) whole onWire
      rcases follows with key | ⟨previous, rfl, sameEpoch, nextId⟩
      · exact .inl ⟨transmission, there, by rw [← keyframe, ← gathers.keyframe, key]⟩
      · obtain ⟨before, rfl, earlier, first, found, onWire', number', id', gathers'⟩ := behind previous rfl
        obtain ⟨epoch', _⟩ := transmitted.labels earlier (List.mem_of_getElem? found) first onWire'
        have next := rank_succ_of_follows transmitted number' number (by rw [id, nextId, id'])
        have inside := (List.getElem?_eq_some_iff.mp there).1
        rcases Kept.next_place found onWire' inside next with adjacent | ⟨lost, stands, never⟩
        · refine .inr ⟨before, rfl, adjacent, earlier, transmission, found, there, ?_⟩
          rw [← epoch, ← epoch', ← gathers.epoch, ← gathers'.epoch, sameEpoch]
        · refine .inl (keyframeAt_of_restarts restarts ?_ there stands never (by rw [onWire]; rfl))
          rintro rfl
          rw [there] at stands
          obtain rfl := Option.some.inj stands
          rw [onWire] at never
          contradiction
  exact goesOn frames none none joined offWire (by simp)

/-! ## What is written was handed on -/

variable {C : Type*} {codec : Codec C} {depacketize : FrameAssembly → List Byte} {v : VideoReceiver C}

/-- The transport gathers frames of the wire, and those that are ready are such frames. -/
structure Traced (sent : List Transmission) (v : VideoReceiver C) : Prop where
  faithful : Faithful (wireFrames sent) v.transport
  ready : ∀ frame ∈ v.ready, OffWire sent frame

/-- The media packets of a step are packets on the wire. -/
def Fed (rtc : Rtc) (sent : List Transmission) : VideoReceiverEvent → Prop
  | .incoming batch => ∀ arrival ∈ mediaArrivals rtc batch.arrivals,
      ∃ frame ∈ wireFrames sent, arrival.2 ∈ frame.packets
  | _ => True

private theorem traced_incoming (wire : Wire rtc (wireFrames sent)) (traced : Traced sent v) {batch : Batch}
    (fed : Fed rtc sent (.incoming batch)) :
    Traced sent (v.step rtc codec depacketize (.incoming batch)).1 := by
  rw [VideoReceiver.step]
  split_ifs
  · have delivered : ∀ event ∈ ReceiverCall.events rtc (.incoming batch), Delivered (wireFrames sent) event := by
      rintro event member atUs message rfl
      simp only [ReceiverCall.events, packetEvents, List.mem_cons, List.mem_append, List.mem_map, reduceCtorEq,
        false_or, List.not_mem_nil, or_false, ReceiverEvent.packet.injEq] at member
      obtain ⟨arrival, inside, _, rfl⟩ := member
      exact fed arrival inside
    have final := call_expands rtc v.transport (.incoming batch)
    have frames := call_frames rtc v.transport (.incoming batch)
    refine ⟨?_, fun frame member => emitted_run wire traced.faithful delivered frame ?_⟩
    · exact Eq.mpr (congrArg _ final) (faithful_run wire traced.faithful delivered)
    · rw [← frames]
      exact member
  · exact traced

private theorem onFrame_transport (codec : Codec C) (v : VideoReceiver C) (frame : List Byte) :
    (v.onFrame codec frame).1.transport = v.transport.invalidateSync ∨
      (v.onFrame codec frame).1.transport = v.transport := by
  simp only [VideoReceiver.onFrame]
  generalize codec.decode _ frame = decoded
  cases decoded.2
  · exact .inl rfl
  · exact .inr rfl

private theorem traced_step (wire : Wire rtc (wireFrames sent)) (traced : Traced sent v)
    {event : VideoReceiverEvent} (fed : Fed rtc sent event) :
    Traced sent (v.step rtc codec depacketize event).1 ∧
      ∀ frame ∈ (v.step rtc codec depacketize event).2.passed ++ (v.step rtc codec depacketize event).2.written,
        OffWire sent frame := by
  have quiet (event : ReceiverEvent) (silent : Delivered (wireFrames sent) event) :
      Faithful (wireFrames sent) (v.transport.step rtc event).1 := faithful_step wire traced.faithful event silent
  cases event with
  | incoming batch =>
    refine ⟨traced_incoming wire traced fed, ?_⟩
    rw [VideoReceiver.step]
    split_ifs <;> simp
  | frame =>
    rw [VideoReceiver.step]
    cases first : v.ready with
    | nil => exact ⟨traced, by simp⟩
    | cons frame ready =>
      have own := traced.ready frame (by simp [first])
      refine ⟨⟨?_, fun other inside => traced.ready other (by simp [first, show other ∈ ready from inside])⟩, ?_⟩
      · rcases onFrame_transport codec v (depacketize frame) with lost | kept
        · exact Eq.mpr (congrArg _ lost) (quiet .invalidateSync fun _ _ _ => by contradiction)
        · exact Eq.mpr (congrArg _ kept) traced.faithful
      · dsimp only
        split_ifs <;> simp [own]
  | poll atUs => exact ⟨⟨quiet (.poll atUs) fun _ _ _ => by contradiction, traced.ready⟩, by simp [VideoReceiver.step]⟩
  | recordPliSent =>
    exact ⟨⟨quiet .recordPliSent fun _ _ _ => by contradiction, traced.ready⟩, by simp [VideoReceiver.step]⟩

private theorem traced_run (wire : Wire rtc (wireFrames sent)) (traced : Traced sent v)
    {events : List VideoReceiverEvent} (fed : ∀ event ∈ events, Fed rtc sent event) :
    (∀ frame ∈ passedFrames rtc codec depacketize v events, OffWire sent frame) ∧
      ∀ frame ∈ writtenFrames rtc codec depacketize v events, OffWire sent frame := by
  induction events generalizing v with
  | nil => simp [passedFrames, writtenFrames]
  | cons event events ih =>
    obtain ⟨next, own⟩ := @traced_step rtc sent C codec depacketize v wire traced event
      (fed event List.mem_cons_self)
    obtain ⟨passed, written⟩ := ih next fun other inside => fed other (List.mem_cons_of_mem _ inside)
    constructor
    all_goals
      intro frame member
      first
        | rw [passedFrames] at member
        | rw [writtenFrames] at member
      rw [Transducer.outputs_cons, List.flatMap_cons, List.mem_append] at member
      rcases member with here | there
    · exact own frame (List.mem_append_left _ here)
    · exact passed frame there
    · exact own frame (List.mem_append_right _ here)
    · exact written frame there

/-! ## The network between them -/

section Network

variable {handler : RtxReceivingHandler} (demultiplexes : rtc.DemultiplexesBySecondByte) (fits : handler.TypesFit rtc)
  (apart : handler.primaryPayloadType ≠ handler.rtxPayloadType) {inputFile : Bool}
  {senderRun : List VideoSenderEvent} (stampable : ∀ event ∈ senderRun, event.Stampable rtc)
  (primary : ∀ event ∈ senderRun, event.Primary rtc handler)
  (short : (wireFrames ((VideoSender.start inputFile).transmissions rtc senderRun)).length < 2 ^ 32)

include demultiplexes stampable short in
private theorem wire_transmissions :
    Wire rtc (wireFrames ((VideoSender.start inputFile).transmissions rtc senderRun)) := by
  rw [← sentFrames_handlerRun] at short ⊢
  exact wire_sentFrames demultiplexes (stampable_handlerRun stampable) short

include demultiplexes fits apart stampable primary in
private theorem packets_of_brings {batch : Batch} (brings : batch.Brings rtc handler
      (wireFrames ((VideoSender.start inputFile).transmissions rtc senderRun))) :
    ∀ arrival ∈ mediaArrivals rtc (batch.restored rtc handler).arrivals,
      ∃ frame ∈ wireFrames ((VideoSender.start inputFile).transmissions rtc senderRun),
        arrival.2 ∈ frame.packets := by
  rw [← sentFrames_handlerRun] at brings ⊢
  exact mem_packets_of_brings fits apart (primary_sentFrames demultiplexes (stampable_handlerRun stampable)
    (primary_handlerRun primary)) brings

variable (restarts : RestartsOnWire ((VideoSender.start inputFile).transmissions rtc senderRun))

include demultiplexes fits apart stampable primary short restarts in
/-- Whatever the network does with the packets of a run of the sending loop and with their retransmissions, the
frames that the receiver hands on can be decoded. -/
theorem handedOn_decodable (recoveryTimeoutMs : ℤ) {calls : List ReceiverCall}
    (brings : ∀ batch, .incoming batch ∈ calls → batch.Brings rtc handler
      (wireFrames ((VideoSender.start inputFile).transmissions rtc senderRun))) :
    Decodable ((VideoSender.start inputFile).transmissions rtc senderRun)
      (emitted rtc (.new recoveryTimeoutMs) (calls.map (ReceiverCall.restored rtc handler))) := by
  have wire := wire_transmissions demultiplexes stampable short
  have delivers : Delivers rtc (wireFrames ((VideoSender.start inputFile).transmissions rtc senderRun))
      (calls.map (ReceiverCall.restored rtc handler)) := by
    intro batch member
    obtain ⟨call, inside, same⟩ := List.mem_map.mp member
    cases call with
    | incoming before =>
      obtain rfl := ReceiverCall.incoming.inj same
      exact packets_of_brings demultiplexes fits apart stampable primary (brings before inside)
    | _ => cases same
  rw [emitted_eq]
  refine decodable_of_joined (transmitted_start inputFile senderRun short) restarts
    (joined_events (gate_new recoveryTimeoutMs) _).1 fun frame member => ?_
  exact emitted_run wire (faithful_new _ recoveryTimeoutMs) (delivered_runEvents delivers) frame member

include demultiplexes fits apart stampable primary short restarts in
/-- With a codec that needs a keyframe to start and a depacketizer that gives back the keyframes that were
encoded, the frames in the output file can be decoded, and the file holds nothing else. -/
theorem recording_decodable (codec : Codec C) (depacketize : FrameAssembly → List Byte)
    (starts : codec.StartsWithKeyframe)
    (keyframes : ∀ transmission ∈ (VideoSender.start inputFile).transmissions rtc senderRun, ∀ whole,
      transmission.onWire = some whole → ∀ frame : FrameAssembly, frame.packets = whole.packets.map some →
        containsH264Idr (depacketize frame) = transmission.frame.keyframe)
    (recoveryTimeoutMs : ℤ) (outputFile : Bool) (decoder : C) {receiverRun : List VideoReceiverEvent}
    (brings : ∀ batch, .incoming batch ∈ receiverRun → batch.Brings rtc handler
      (wireFrames ((VideoSender.start inputFile).transmissions rtc senderRun))) :
    let start := VideoReceiver.attachTrack recoveryTimeoutMs outputFile decoder
    let events := receiverRun.map (VideoReceiverEvent.restored rtc handler)
    Decodable ((VideoSender.start inputFile).transmissions rtc senderRun)
        (writtenFrames rtc codec depacketize start events) ∧
      ∀ bytes ∈ ((videoReceiverMachine rtc codec depacketize).final start events).output,
        bytes = (writtenFrames rtc codec depacketize start events).flatMap depacketize := by
  intro start events
  have wire := wire_transmissions demultiplexes stampable short
  have transmitted := @transmitted_start rtc inputFile senderRun short
  have fed : ∀ event ∈ events, Fed rtc ((VideoSender.start inputFile).transmissions rtc senderRun) event := by
    intro event member
    obtain ⟨before, inside, rfl⟩ := List.mem_map.mp member
    cases before with
    | incoming batch => exact packets_of_brings demultiplexes fits apart stampable primary (brings batch inside)
    | _ => trivial
  obtain ⟨passed, written⟩ := @traced_run rtc _ C codec depacketize start wire
    ⟨faithful_new _ recoveryTimeoutMs, by simp [start, VideoReceiver.attachTrack]⟩ events fed
  have stamped : KeyframesAreStamped rtc codec depacketize start events := by
    intro frame member
    obtain ⟨whole, onWire, _, gathers, packets⟩ := passed frame member
    obtain ⟨transmission, inside, same⟩ := List.mem_filterMap.mp onWire
    rw [keyframes transmission inside whole same frame packets, gathers.keyframe,
      (transmitted.labels transmission inside whole same).2]
  obtain ⟨_, recorded⟩ := recorded_run starts (recorded_attachTrack depacketize recoveryTimeoutMs outputFile decoder)
    events stamped
  rw [List.nil_append] at recorded
  exact ⟨decodable_of_joined transmitted restarts recorded.clean written, recorded.file⟩

end Network

/-! ## A run -/

/-- An encoder that makes a keyframe of a forced frame only. -/
private def forcedOnly : EncoderReply where
  packet forced := some ⟨[if forced then 0x65 else 0x41], forced⟩
  forced := by simp

private def sendTurn (outcome : SendOutcome) (messages : List MessagePtr) : List VideoSenderEvent :=
  [.beginTurn 1000, .exchange, .encode forcedOnly, .send outcome messages]

/-- The third frame is lost before it gets an id; the fourth is a keyframe and takes that id. -/
private def lossyRun : List VideoSenderEvent :=
  .trackOpened :: sendTurn .sent [some (Rtp.packet 1 true [0x65])] ++
    sendTurn .sent [some (Rtp.packet 2 false [0x41]), some (Rtp.packet 3 true [0x42])] ++
    sendTurn .threwBefore [some (Rtp.packet 4 true [0x41])] ++
    .raiseForceKeyframe :: sendTurn .sent [some (Rtp.packet 5 true [0x65])] ++
    sendTurn .sent [some (Rtp.packet 6 true [0x41])]

private theorem lossyRun_sends : ∀ event ∈ lossyRun, ∀ outcome messages, event = .send outcome messages →
    messages.length ≤ 2 ∧ ∀ message, some message ∈ messages → ∃ sequence last payload,
      message = Rtp.packet sequence last [payload] := by
  rintro event member outcome messages rfl
  simp only [lossyRun, sendTurn, List.cons_append, List.nil_append, List.mem_cons, reduceCtorEq, false_or,
    VideoSenderEvent.send.injEq, List.not_mem_nil, or_false] at member
  rcases member with ⟨_, rfl⟩ | ⟨_, rfl⟩ | ⟨_, rfl⟩ | ⟨_, rfl⟩ | ⟨_, rfl⟩
  all_goals
    refine ⟨by decide, fun message inside => ?_⟩
    simp only [List.mem_cons, Option.some.injEq, List.not_mem_nil, or_false] at inside
    rcases inside with rfl | rfl <;> exact ⟨_, _, _, rfl⟩

private theorem lossyRun_stampable : ∀ event ∈ lossyRun, event.Stampable .rfc5761 := by
  intro event member
  cases event with
  | send outcome messages =>
    obtain ⟨few, bare⟩ := lossyRun_sends _ member outcome messages rfl
    refine ⟨Nat.le_trans (List.length_filter_le _ _) (Nat.le_trans few (by decide)), fun message inside _ => ?_⟩
    obtain ⟨sequence, last, payload, rfl⟩ := bare message inside
    exact bare_packet sequence last payload
  | _ => trivial

private theorem lossyRun_primary : ∀ event ∈ lossyRun, event.Primary .rfc5761 .video := by
  intro event member
  cases event with
  | send outcome messages =>
    obtain ⟨_, bare⟩ := lossyRun_sends _ member outcome messages rfl
    intro message inside _
    obtain ⟨sequence, last, payload, rfl⟩ := bare message inside
    exact ⟨primary_packet sequence last [payload], rfl⟩
  | _ => trivial

private def lossySent : List Transmission := (VideoSender.start true).transmissions .rfc5761 lossyRun

/-- A packet of the run, plain or under a number of the RTX stream. -/
private def onNetwork (entry : ℕ × Option UInt16) : ℤ × MessagePtr :=
  let packet := ((wireFrames lossySent).flatMap SentFrame.packets).getD entry.1 (Rtp.packet 0 false [])
  (2000, some (match entry.2 with
    | none => packet
    | some sequence =>
      { packet with bytes := RtxReceivingHandler.video.encapsulate sequence packet.bytes, stream := 0x12345679 }))

private def networkBatch (entries : List (ℕ × Option UInt16)) : Batch := ⟨entries.map onNetwork, 2000, 2000⟩

private theorem networkBatch_brings {entries : List (ℕ × Option UInt16)} (inside : ∀ entry ∈ entries, entry.1 < 5) :
    (networkBatch entries).Brings .rfc5761 .video (wireFrames lossySent) := by
  intro arrival media
  simp only [mediaArrivals, networkBatch, List.mem_filterMap, List.mem_map] at media
  obtain ⟨_, ⟨⟨number, sequence⟩, member, rfl⟩, here⟩ := media
  split_ifs at here
  simp only [onNetwork, Option.map_some, Option.some.injEq] at here
  subst here
  have there : ((wireFrames lossySent).flatMap SentFrame.packets).getD number (Rtp.packet 0 false []) ∈
      (wireFrames lossySent).flatMap SentFrame.packets := by
    have count : ((wireFrames lossySent).flatMap SentFrame.packets).length = 5 := by decide +kernel
    have small := inside _ member
    rw [List.getD_eq_getElem _ _ (by rw [count]; exact small)]
    exact List.getElem_mem _
  obtain ⟨frame, ofSent, ofFrame⟩ := List.mem_flatMap.mp there
  refine ⟨frame, ofSent, _, ofFrame, ?_⟩
  cases sequence with
  | none => exact .plain
  | some sequence => exact .retransmitted sequence 0x12345679

/-- The first packet of the second frame is lost and comes back as a retransmission, twice. -/
private def repairedBatches : List Batch :=
  [networkBatch [(0, none)], networkBatch [(2, none)], networkBatch [(1, some 7), (1, some 8)],
    networkBatch [(3, none), (4, none)]]

private theorem repairedBatches_bring : ∀ batch ∈ repairedBatches,
    batch.Brings .rfc5761 .video (wireFrames lossySent) := by
  intro batch member
  simp only [repairedBatches, List.mem_cons, List.not_mem_nil, or_false] at member
  rcases member with rfl | rfl | rfl | rfl <;> exact networkBatch_brings (by decide)

/-- Four of the five encoded frames come out. -/
theorem handedOn_decodable_repaired :
    (emitted .rfc5761 (.new 1000) ((repairedBatches.map ReceiverCall.incoming).map
      (ReceiverCall.restored .rfc5761 .video))).map FrameAssembly.frameId = [1, 2, 3, 4] ∧
    lossySent.map (fun transmission => (transmission.frame.keyframe, transmission.onWire.isSome)) =
      [(true, true), (false, true), (false, false), (true, true), (false, true)] ∧
    Decodable lossySent (emitted .rfc5761 (.new 1000) ((repairedBatches.map ReceiverCall.incoming).map
      (ReceiverCall.restored .rfc5761 .video))) := by
  refine ⟨by decide +kernel, by decide +kernel, ?_⟩
  refine handedOn_decodable Rtc.rfc5761_demultiplexes video_typesFit (by decide) lossyRun_stampable
    lossyRun_primary (by decide +kernel) (by unfold RestartsOnWire; decide +kernel) 1000 fun batch member => ?_
  obtain ⟨batch', inside, same⟩ := List.mem_map.mp member
  obtain rfl := ReceiverCall.incoming.inj same
  exact repairedBatches_bring batch' inside

/-- A codec that needs a keyframe to start. -/
private def startingCodec : Codec Bool where
  reopen _ := false
  newPacket context _ := (context, true)
  sendPacket context frame := if context || containsH264Idr frame then (true, 0) else (context, -1)
  receiveFrames context := (context, [{}])

private theorem startingCodec_starts : startingCodec.StartsWithKeyframe := by
  intro context frame delta
  simp [Codec.decode, startingCodec, delta]

/-- The NAL units of some packets. -/
private def unitsOf (packets : List MessagePtr) : List Byte :=
  packets.flatMap fun packet => packet.elim [] fun message =>
    [0, 0, 0, 1] ++ message.bytes.drop (declaredHeaderSize message.bytes) ++ [0x80]

theorem recording_decodable_repaired :
    let start := VideoReceiver.attachTrack 1000 true false
    let events := (repairedBatches.flatMap fun batch => [.incoming batch, .frame, .frame, .poll 2000]).map
      (VideoReceiverEvent.restored .rfc5761 .video)
    let depacketize := fun frame : FrameAssembly => unitsOf frame.packets
    (writtenFrames .rfc5761 startingCodec depacketize start events).map FrameAssembly.frameId = [1, 2, 3, 4] ∧
    Decodable lossySent (writtenFrames .rfc5761 startingCodec depacketize start events) ∧
    ∀ bytes ∈ ((videoReceiverMachine .rfc5761 startingCodec depacketize).final start events).output,
      bytes = (writtenFrames .rfc5761 startingCodec depacketize start events).flatMap depacketize := by
  refine ⟨by decide +kernel, ?_⟩
  refine recording_decodable Rtc.rfc5761_demultiplexes video_typesFit (by decide) lossyRun_stampable
    lossyRun_primary (by decide +kernel) (by unfold RestartsOnWire; decide +kernel) startingCodec _
    startingCodec_starts ?_ 1000 true false fun batch member => ?_
  · intro transmission member whole onWire frame packets
    have all : ∀ transmission ∈ lossySent, ∀ whole ∈ transmission.onWire.toList,
        containsH264Idr (unitsOf (whole.packets.map some)) = transmission.frame.keyframe := by decide +kernel
    rw [packets]
    exact all transmission member whole (by rw [onWire]; exact List.mem_singleton_self _)
  · simp only [List.mem_flatMap, List.mem_cons, reduceCtorEq, List.not_mem_nil, or_false,
      VideoReceiverEvent.incoming.injEq] at member
    obtain ⟨batch', inside, rfl⟩ := member
    exact repairedBatches_bring batch inside

end WeakNetVideo
