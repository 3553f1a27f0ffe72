import WeakNetVideo.Model.SenderSession
import WeakNetVideo.Soundness.Stamps

/-! # The numbers of the packets on the wire

The statistics handler numbers the packets of a sending process, and the transport handler behind it may add
its label. On the wire the packets carry the numbers one, two, three and so on, in sixteen bits.
-/

namespace WeakNetVideo

open BigEndian

/-- A packet as the transport handler leaves it: passed, or with a label. -/
inductive Labelled (rtc : Rtc) (message : Message) : Message → Prop
  | passed : Labelled rtc message message
  | added (metadata : FrameMetadata) : Labelled rtc message (addFrameMetadata rtc metadata message)

/-- Of the packets of a call those that took a number, as they go out. -/
def numberedOf (rtc : Rtc) (before after : List MessagePtr) : List Message :=
  (before.zip after).filterMap fun pair => if pair.1.any (numbered rtc) then pair.2 else none

/-- What a step sends under numbers. -/
def SessionEvent.numberedPackets (rtc : Rtc) : SessionEvent → SenderShown → List Message
  | .send _ packets, .attempt _ _ _ sent => numberedOf rtc (packets.map Passing.message) sent
  | _, _ => []

/-- What a run sends under numbers. -/
def SenderSession.numberedPackets (rtc : Rtc) (structs : RtcpStructs) : SenderSession → List SessionEvent →
    List Message
  | _, [] => []
  | s, event :: events => event.numberedPackets rtc (s.step rtc structs event).2 ++
      numberedPackets rtc structs (s.step rtc structs event).1 events

/-- Every packet of the event that takes a number can carry both stamps. -/
def SessionEvent.Stampable (rtc : Rtc) : SessionEvent → Prop
  | .send _ packets => ∀ passing ∈ packets, ∀ message ∈ passing.message, numbered rtc message = true →
      WeakNetVideo.Stampable rtc message
  | _ => True

variable {rtc : Rtc} {structs : RtcpStructs} {message sent : Message}

/-! ## One packet -/

/-- The number is read behind the label. -/
theorem readTwccSequence_labelled (demultiplexes : rtc.DemultiplexesBySecondByte) (good : Stampable rtc message)
    (sequence : UInt16) (labelled : Labelled rtc (writeTwccExtension rtc sequence message).1 sent) :
    readTwccSequence rtc (some sent) = some sequence := by
  rw [writeTwccExtension_eq, if_pos good.numbered] at labelled
  obtain ⟨old, goesOn⟩ := Option.isSome_iff_exists.mp good.goesOn
  have kept := (oldExtension_some goesOn).2
  have small := good.small
  have first : Extended message.bytes [(twccExtMapId, bytesU16 sequence)]
      (rewriteExtension message.bytes (twccDescriptor :: bytesU16 sequence)) :=
    extended_rewriteExtension goesOn (by simp; omega) (by decide) (by decide) (by decide) (by simp; decide)
  have width := @length_extensionBody_le _ _ goesOn (twccDescriptor :: bytesU16 sequence) (by simp; omega)
  have rtp := isRtp_of_extended demultiplexes first good.rtp
  generalize rewriteExtension message.bytes (twccDescriptor :: bytesU16 sequence) = stamped at *
  have read {added : List (Byte × List Byte)} {bytes : List Byte}
      (extended : Extended message.bytes ((twccExtMapId, bytesU16 sequence) :: added) bytes) :
      readTwccSequence rtc (some { message with bytes := bytes }) = some sequence := by
    obtain ⟨_, long, media⟩ := (isRtp_some_iff rtc _).mp (isRtp_of_extended demultiplexes extended good.rtp)
    have own : (elementValues (extensionBody message.bytes)).find? isTwccEntry = none :=
      List.find?_eq_none.mpr fun entry member => by simp [(good.unstamped entry member).1]
    refine readTwccSequence_of_find long media ((version_of_extended extended).trans good.version) extended.readable ?_
    rw [extended.elements, List.find?_append, own, Option.none_or, List.find?_cons_of_pos]
    simp [isTwccEntry]
  cases labelled with
  | passed => exact read first
  | added metadata =>
    obtain ⟨old', goesOn'⟩ := Option.isSome_iff_exists.mp first.oldExtension_isSome
    have kept' : old'.1.length ≤ (extensionBody stamped).length := by
      rw [(oldExtension_eq goesOn').1, List.length_take]
      exact Nat.min_le_right ..
    have second : Extended stamped [(frameInfoExtMapId, metadata.value)]
        (rewriteExtension stamped (frameInfoDescriptor :: metadata.value)) :=
      extended_rewriteExtension goesOn' (by simp at width ⊢; omega) (by decide) (by decide) (by decide)
        (by simp; decide)
    rw [addFrameMetadata, if_pos rtp]
    exact read (first.trans second)

/-! ## One call -/

theorem labelled_stampMessages (stamp : UInt16 → FrameMetadata) (count index : ℕ) (messages : List MessagePtr) :
    List.Forall₂ (Option.Rel (Labelled rtc)) messages
      (Sender.stampMessages rtc stamp count index messages) := by
  induction messages generalizing index with
  | nil => exact .nil
  | cons pointer rest ih =>
    have passed : Option.Rel (Labelled rtc) pointer pointer := by
      cases pointer with
      | none => exact .none
      | some message => exact .some .passed
    rw [Sender.stampMessages]
    split_ifs
    · refine .cons ?_ (ih (index + 1))
      cases pointer with
      | none => exact .none
      | some message => exact .some (.added _)
    · exact .cons passed (ih (index + 1))
    · exact .cons passed (ih index)

theorem labelled_senderOutgoing (s : Sender) (messages : List MessagePtr) :
    List.Forall₂ (Option.Rel (Labelled rtc)) messages (s.senderOutgoing rtc messages).2 := by
  rw [Sender.senderOutgoing]
  dsimp only
  split_ifs
  · refine List.forall₂_same.mpr fun pointer _ => ?_
    cases pointer with
    | none => exact .none
    | some message => exact .some .passed
  · exact labelled_stampMessages _ _ _ _

/-- A packet that takes no number leaves the counter. -/
private theorem observeOutgoing_sender {h : MediaStatisticsHandler} (sends : h.direction = .sender)
    (passing : Passing) :
    (h.observeOutgoing rtc structs passing).1 = { h with
      nextTwccSequence :=
        if passing.message.any (numbered rtc) then h.nextTwccSequence + 1 else h.nextTwccSequence } ∧
      (h.observeOutgoing rtc structs passing).2.1 =
        passing.message.map fun message => (writeTwccExtension rtc h.nextTwccSequence message).1 := by
  simp only [MediaStatisticsHandler.observeOutgoing, sends]
  cases passing.message with
  | none => exact ⟨by cases h; simp_all, rfl⟩
  | some message =>
    simp only [Option.any_some, Option.map_some, writeTwccExtension_eq, and_true, ← sends]
    split_ifs <;> rfl

/-- The packets of a call carry the numbers from the counter on. -/
theorem reads_outgoing (demultiplexes : rtc.DemultiplexesBySecondByte) {h : MediaStatisticsHandler}
    (sends : h.direction = .sender) {passings : List Passing} {number : ℕ} {out : List MessagePtr}
    (next : h.nextTwccSequence = UInt16.ofNat number)
    (good : ∀ passing ∈ passings, ∀ message ∈ passing.message, numbered rtc message = true →
      Stampable rtc message)
    (labelled : List.Forall₂ (Option.Rel (Labelled rtc)) (h.outgoing rtc structs passings).2.1 out) :
    let packets := numberedOf rtc (passings.map Passing.message) out
    packets.map (fun message => readTwccSequence rtc (some message)) =
        (List.range' number packets.length).map (fun n => some (UInt16.ofNat n)) ∧
      (h.outgoing rtc structs passings).1 =
        { h with nextTwccSequence := UInt16.ofNat (number + packets.length) } := by
  induction passings generalizing h number out with
  | nil =>
    refine ⟨rfl, ?_⟩
    change h = _
    rw [List.map_nil, numberedOf, List.zip_nil_left]
    cases h
    simpa using next
  | cons passing passings ih =>
    obtain ⟨left, stamped⟩ := @observeOutgoing_sender rtc structs h sends passing
    simp only [MediaStatisticsHandler.outgoing] at labelled ⊢
    rw [stamped] at labelled
    obtain _ | @⟨_, first, _, rest, own, others⟩ := labelled
    have inside := fun passing member => good passing (List.mem_cons_of_mem _ member)
    rw [left] at others ⊢
    cases takes : passing.message.any (numbered rtc) with
    | false =>
      have same : numberedOf rtc ((passing :: passings).map Passing.message) (first :: rest) =
          numberedOf rtc (passings.map Passing.message) rest := by
        simp [numberedOf, takes]
      rw [same]
      simp only [takes, Bool.false_eq_true, if_false] at others ⊢
      exact ih sends next inside others
    | true =>
      obtain ⟨message, some_, counts⟩ := (Option.any_eq_true _ _).mp takes
      rw [some_, Option.map_some] at own
      obtain @⟨_, sent, label⟩ := own
      have packets : numberedOf rtc ((passing :: passings).map Passing.message) (some sent :: rest) =
          sent :: numberedOf rtc (passings.map Passing.message) rest := by
        simp [numberedOf, takes]
      have after : h.nextTwccSequence + 1 = UInt16.ofNat (number + 1) := by
        rw [next, UInt16.ofNat_add]
        rfl
      have reads := readTwccSequence_labelled demultiplexes (good passing List.mem_cons_self message some_ counts)
        _ label
      simp only [takes, if_true] at others ⊢
      obtain ⟨more, last⟩ := ih (h := { h with nextTwccSequence := h.nextTwccSequence + 1 }) sends after inside others
      rw [packets]
      refine ⟨?_, ?_⟩
      · simp only [List.map_cons, List.length_cons, List.range'_succ, reads, more, next]
      · simp only [last, List.length_cons, Nat.add_assoc, Nat.add_comm 1]

/-! ## Runs -/

/-- What comes in leaves the handler of a sender as it is, and is observed message by message. -/
theorem incoming_sender {h : MediaStatisticsHandler} (sends : h.direction = .sender) (messages : List Passing)
    (atUs : ℤ) :
    h.incoming rtc structs messages atUs = (h, messages.flatMap (observeRtcp rtc structs false), none) := by
  have all : h.observeAll rtc structs messages = (h, messages.flatMap (observeRtcp rtc structs false)) := by
    induction messages with
    | nil => rfl
    | cons passing messages ih =>
      simp only [MediaStatisticsHandler.observeAll, MediaStatisticsHandler.observeIncoming, sends, ih,
        List.flatMap_cons]
  simp only [MediaStatisticsHandler.incoming, all, sends]

/-- The handler numbers as a sender, and the counter has come to a number. -/
def SenderSession.NumbersFrom (s : SenderSession) (number : ℕ) : Prop :=
  s.statistics.direction = .sender ∧ s.statistics.nextTwccSequence = UInt16.ofNat number

/-- What `send_frame` shows of a frame. -/
private theorem shown_send {s : VideoSender} {frame : EncodedVideoFrame} {atUs : ℤ}
    (turn : s.turn = .encoded frame atUs) (outcome : SendOutcome) (messages : List MessagePtr) :
    (s.send rtc outcome messages).2 = .attempt frame s.timestamp (outcome = .sent)
      (if outcome = .threwBefore then []
      else ((s.transport.setOutgoingFrame frame.epoch frame.keyframe).senderOutgoing rtc messages).2) := by
  cases outcome <;> simp [VideoSender.send, turn]

private theorem reads_send (demultiplexes : rtc.DemultiplexesBySecondByte) {s : SenderSession} {number : ℕ}
    (numbers : s.NumbersFrom number) (outcome : SendOutcome) (passings : List Passing)
    (good : (SessionEvent.send outcome passings).Stampable rtc) :
    let packets := (SessionEvent.send outcome passings).numberedPackets rtc (s.send rtc structs outcome passings).2
    packets.map (fun message => readTwccSequence rtc (some message)) =
        (List.range' number packets.length).map (fun n => some (UInt16.ofNat n)) ∧
      (s.send rtc structs outcome passings).1.NumbersFrom (number + packets.length) := by
  rw [SenderSession.send]
  cases turn : s.video.turn with
  | encoded frame atUs =>
    dsimp only
    split_ifs with before
    · have none_ : numberedOf rtc (passings.map Passing.message) [] = [] := by
        rw [numberedOf, List.zip_nil_right, List.filterMap_nil]
      simp only [shown_send turn, before, if_true, SessionEvent.numberedPackets, none_]
      exact ⟨rfl, numbers⟩
    · have labelled := @labelled_senderOutgoing rtc (s.video.transport.setOutgoingFrame frame.epoch frame.keyframe)
        (s.statistics.outgoing rtc structs passings).2.1
      obtain ⟨reads, last⟩ := reads_outgoing demultiplexes numbers.1 numbers.2 good labelled
      simp only [shown_send turn, before, if_false, SessionEvent.numberedPackets]
      refine ⟨reads, ?_, ?_⟩
      · rw [last]
        exact numbers.1
      · rw [last]
  | _ => exact ⟨rfl, numbers⟩

private theorem reads_step (demultiplexes : rtc.DemultiplexesBySecondByte) (structs : RtcpStructs)
    {s : SenderSession} {number : ℕ} (numbers : s.NumbersFrom number) (event : SessionEvent)
    (good : event.Stampable rtc) :
    let packets := event.numberedPackets rtc (s.step rtc structs event).2
    packets.map (fun message => readTwccSequence rtc (some message)) =
        (List.range' number packets.length).map (fun n => some (UInt16.ofNat n)) ∧
      (s.step rtc structs event).1.NumbersFrom (number + packets.length) := by
  cases event with
  | sending event own => exact ⟨rfl, numbers⟩
  | send outcome passings => exact reads_send demultiplexes numbers outcome passings good
  | incoming messages atUs =>
    refine ⟨rfl, ?_⟩
    change (s.incoming rtc structs messages atUs).NumbersFrom number
    rw [SenderSession.incoming, incoming_sender numbers.1]
    exact numbers
  | takeSnapshot atUs =>
    refine ⟨rfl, ?_⟩
    change (s.takeSnapshot atUs).NumbersFrom number
    rw [SenderSession.takeSnapshot]
    split <;> exact numbers
  | updateProfile =>
    refine ⟨rfl, ?_⟩
    change s.updateProfile.NumbersFrom number
    rw [SenderSession.updateProfile]
    split <;> exact numbers
  | updateNetworkQuality =>
    refine ⟨rfl, ?_⟩
    change s.updateNetworkQuality.NumbersFrom number
    rw [SenderSession.updateNetworkQuality]
    split <;> exact numbers

/-- The packets of a run carry the numbers from the counter on. -/
theorem reads_numberedPackets (demultiplexes : rtc.DemultiplexesBySecondByte) (structs : RtcpStructs)
    {s : SenderSession} {number : ℕ} (numbers : s.NumbersFrom number) {events : List SessionEvent}
    (good : ∀ event ∈ events, event.Stampable rtc) :
    let packets := s.numberedPackets rtc structs events
    packets.map (fun message => readTwccSequence rtc (some message)) =
      (List.range' number packets.length).map (fun n => some (UInt16.ofNat n)) := by
  induction events generalizing s number with
  | nil => rfl
  | cons event events ih =>
    obtain ⟨first, next⟩ := reads_step demultiplexes structs numbers event (good event List.mem_cons_self)
    have rest := ih next fun event member => good event (List.mem_cons_of_mem _ member)
    simp only [SenderSession.numberedPackets, List.map_append, List.length_append] at first rest ⊢
    rw [first, rest, ← List.map_append, List.range'_append_1]

/-- The packet at a place carries the place, counted from one. -/
theorem readTwccSequence_numberedPackets (demultiplexes : rtc.DemultiplexesBySecondByte)
    (structs : RtcpStructs) {s : SenderSession} (numbers : s.NumbersFrom 1) {events : List SessionEvent}
    (good : ∀ event ∈ events, event.Stampable rtc)
    {place : ℕ} (found : (s.numberedPackets rtc structs events)[place]? = some message) :
    readTwccSequence rtc (some message) = some (UInt16.ofNat (place + 1)) := by
  have reads := congrArg (fun list => list[place]?)
    (reads_numberedPackets demultiplexes structs numbers good)
  have inside := (List.getElem?_eq_some_iff.mp found).1
  simp only [List.getElem?_map, found, Option.map_some, List.getElem?_range' inside] at reads
  rw [Option.some.inj reads]
  simp only [Nat.one_mul, Nat.add_comm]

end WeakNetVideo
