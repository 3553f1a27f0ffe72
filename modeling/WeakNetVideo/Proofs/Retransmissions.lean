import WeakNetVideo.Model.Transmission
import WeakNetVideo.Model.VideoReceiver
import WeakNetVideo.Proofs.ExtensionElements
import WeakNetVideo.Proofs.SenderRun
import WeakNetVideo.Soundness.Rtx

/-! # A network with retransmissions

A packet may arrive as it was sent, or as a retransmission in the RTX stream, any number of times and in any
order. The RTX handler stands before the transport handler, which therefore gets packets as they were sent.
-/

namespace WeakNetVideo

open BigEndian

/-- A message that brings a packet: the packet itself, or a retransmission of it. -/
inductive Brings (handler : RtxReceivingHandler) (packet : Message) : Message → Prop
  | plain : Brings handler packet packet
  | retransmitted (sequence : UInt16) (stream : UInt32) : Brings handler packet
    { packet with bytes := handler.encapsulate sequence packet.bytes, stream := stream }

/-- The batch that the RTX handler passes on to the transport handler. -/
def Batch.restored (rtc : Rtc) (handler : RtxReceivingHandler) (batch : Batch) : Batch :=
  { batch with
    arrivals := (batch.arrivals.map Prod.fst).zip (handler.incoming rtc (batch.arrivals.map Prod.snd)).2 }

/-- Every media packet of a batch brings a packet of these frames. -/
def Batch.Brings (rtc : Rtc) (handler : RtxReceivingHandler) (sent : List SentFrame) (batch : Batch) : Prop :=
  ∀ arrival ∈ mediaArrivals rtc batch.arrivals,
    ∃ frame ∈ sent, ∃ packet ∈ frame.packets, WeakNetVideo.Brings handler packet arrival.2

/-- The packets of a frame belong to the primary stream. -/
def SentFrame.Primary (handler : RtxReceivingHandler) (frame : SentFrame) : Prop :=
  ∀ packet ∈ frame.packets, IsPrimaryPacket handler packet.bytes ∧ packet.stream = handler.primarySsrc

/-- The media packets of a call belong to the primary stream. -/
def SenderCall.Primary (rtc : Rtc) (handler : RtxReceivingHandler) : SenderCall → Prop
  | .setOutgoingFrame _ _ => True
  | .outgoing messages => ∀ message, some message ∈ messages → isRtp rtc (some message) = true →
      IsPrimaryPacket handler message.bytes ∧ message.stream = handler.primarySsrc

/-- The media packets of a send belong to the primary stream. -/
def VideoSenderEvent.Primary (rtc : Rtc) (handler : RtxReceivingHandler) : VideoSenderEvent → Prop
  | .send _ messages => SenderCall.Primary rtc handler (.outgoing messages)
  | _ => True

/-- A call of the transport handler behind the RTX handler. -/
def ReceiverCall.restored (rtc : Rtc) (handler : RtxReceivingHandler) : ReceiverCall → ReceiverCall
  | .incoming batch => .incoming (batch.restored rtc handler)
  | call => call

/-- A step of the video receiver behind the RTX handler. -/
def VideoReceiverEvent.restored (rtc : Rtc) (handler : RtxReceivingHandler) :
    VideoReceiverEvent → VideoReceiverEvent
  | .incoming batch => .incoming (batch.restored rtc handler)
  | event => event

variable {rtc : Rtc} {handler : RtxReceivingHandler}

/-! ## What is sent is of the primary stream -/

theorem primary_packet (sequence : UInt16) (last : Bool) (payload : List Byte) :
    IsPrimaryPacket .video (Rtp.packet sequence last payload).bytes := by
  have first : Rtp.byteAt (Rtp.packet sequence last payload).bytes 0 = 0x80 := rfl
  have second : Rtp.byteAt (Rtp.packet sequence last payload).bytes 1 = if last then 0xe6 else 0x66 := rfl
  constructor
  · rw [Rtp.payloadType, second]
    cases last <;> decide
  · have parts : (Rtp.packet sequence last payload).bytes =
        ([0x80, if last then 0xe6 else 0x66] ++ bytesU16 sequence ++ bytesU32 0) ++
          (bytesU32 0x12345678 ++ payload) := by simp [Rtp.packet]
    rw [Rtp.ssrc, parts]
    exact readU32_append _ _ _ _ (by simp)
  · have bare : Rtp.extension (Rtp.packet sequence last payload).bytes = false := by
      rw [Rtp.extension, first]
      decide
    have none_ : Rtp.csrcCount (Rtp.packet sequence last payload).bytes = 0 := by
      rw [Rtp.csrcCount, first]
      decide
    rw [declaredHeaderSize, Rtp.fixedHeaderSize, bare, none_]
    simp [Rtp.packet, Rtp.headerSize]
    omega

/-- A stamp leaves a packet in its stream. -/
theorem primary_addFrameMetadata {message : Message} (metadata : FrameMetadata)
    (small : message.bytes.length ≤ 65535)
    (primary : IsPrimaryPacket handler message.bytes ∧ message.stream = handler.primarySsrc) :
    IsPrimaryPacket handler (addFrameMetadata rtc metadata message).bytes ∧
      (addFrameMetadata rtc metadata message).stream = handler.primarySsrc := by
  rw [addFrameMetadata]
  split_ifs
  · cases old : oldExtension message.bytes with
    | none => simpa only [rewriteExtension, old] using primary
    | some kept =>
      have fits := (oldExtension_some old).2
      have value := metadata.length_value
      have extended : Extended message.bytes [(frameInfoExtMapId, metadata.value)]
          (rewriteExtension message.bytes (frameInfoDescriptor :: metadata.value)) :=
        extended_rewriteExtension old (by omega) (by decide) (by decide) (by decide)
          (by rw [value]; decide)
      exact ⟨⟨extended.payloadType.trans primary.1.payloadType, extended.ssrc.trans primary.1.ssrc,
        extended.declared_le⟩, primary.2⟩
  · exact primary

theorem primary_sentFrames (demultiplexes : rtc.DemultiplexesBySecondByte) {s : Sender} {calls : List SenderCall}
    (stampable : ∀ call ∈ calls, call.Stampable rtc) (primary : ∀ call ∈ calls, call.Primary rtc handler) :
    ∀ frame ∈ sentFrames rtc s calls, frame.Primary handler := by
  induction calls generalizing s with
  | nil => simp [sentFrames]
  | cons call calls ih =>
    intro frame member
    rcases List.mem_append.mp member with here | there
    · have fits := stampable call List.mem_cons_self
      have own := primary call List.mem_cons_self
      cases call with
      | setOutgoingFrame epoch keyframe => simp [Sender.sentFrame] at here
      | outgoing messages =>
        obtain ⟨_, _, _, packets, _⟩ := sentFrame_outgoing demultiplexes fits.1 (Option.mem_toList.mp here)
        intro packet inside
        rw [packets, List.mem_mapIdx] at inside
        obtain ⟨i, inside, rfl⟩ := inside
        obtain ⟨message, media⟩ := mem_present_media (List.getElem_mem inside)
        exact primary_addFrameMetadata _ (fits.2 _ message media).1 (own _ message media)
    · exact ih (fun other inside => stampable other (List.mem_cons_of_mem _ inside))
        (fun other inside => primary other (List.mem_cons_of_mem _ inside)) frame there

theorem primary_handlerRun {s : VideoSender} {events : List VideoSenderEvent}
    (primary : ∀ event ∈ events, event.Primary rtc handler) :
    ∀ call ∈ s.handlerRun rtc events, call.Primary rtc handler :=
  forall_handlerRun (fun _ _ => trivial) fun outcome messages member => primary (.send outcome messages) member

/-! ## What the handler passes on -/

theorem restored_arrivals (rtc : Rtc) (handler : RtxReceivingHandler) (batch : Batch) :
    (batch.restored rtc handler).arrivals =
      batch.arrivals.map fun arrival => (arrival.1, (handler.restore rtc arrival.2).or arrival.2) := by
  simp only [Batch.restored, incoming_eq, List.map_map, List.zip_map', Function.comp_def]

/-- What brings a packet is that packet behind the handler. -/
theorem restore_of_brings (fits : handler.TypesFit rtc)
    (apart : handler.primaryPayloadType ≠ handler.rtxPayloadType) {packet message : Message}
    (primary : IsPrimaryPacket handler packet.bytes ∧ packet.stream = handler.primarySsrc)
    (media : isRtp rtc (some message) = true) (brings : Brings handler packet message) :
    (handler.restore rtc (some message)).or (some message) = some packet := by
  cases brings with
  | plain =>
    rw [restore_of_not_isRtxPacket fun rtx => apart (primary.1.payloadType.symm.trans rtx.payloadType),
      Option.none_or]
  | retransmitted sequence stream =>
    have data := ((isRtp_some_iff rtc _).mp media).1
    rw [(restore_encapsulate fits primary.1 sequence data rfl).2, Option.some_or, ← primary.2]

/-- A media packet behind the handler was one before it. -/
private theorem media_of_restored {pointer : MessagePtr} {message : Message}
    (restored : (handler.restore rtc pointer).or pointer = some message) (media : isRtp rtc (some message) = true) :
    ∃ before, pointer = some before ∧ isRtp rtc (some before) = true := by
  cases pointer with
  | none => simp [RtxReceivingHandler.restore] at restored
  | some before =>
    refine ⟨before, rfl, ?_⟩
    cases undone : handler.restore rtc (some before) with
    | none =>
      rw [undone, Option.none_or] at restored
      rwa [restored]
    | some after => exact (isRtxPacket_of_restore undone).rtp

/-- Behind the handler every media packet is one that was sent. -/
theorem mem_packets_of_brings (fits : handler.TypesFit rtc)
    (apart : handler.primaryPayloadType ≠ handler.rtxPayloadType) {sent : List SentFrame}
    (primary : ∀ frame ∈ sent, frame.Primary handler) {batch : Batch} (brings : batch.Brings rtc handler sent) :
    ∀ arrival ∈ mediaArrivals rtc (batch.restored rtc handler).arrivals,
      ∃ frame ∈ sent, arrival.2 ∈ frame.packets := by
  intro arrival member
  simp only [restored_arrivals, mediaArrivals, List.mem_filterMap, List.mem_map] at member
  obtain ⟨_, ⟨⟨atUs, pointer⟩, inside, rfl⟩, here⟩ := member
  dsimp only at here
  split_ifs at here with media
  obtain ⟨message, restored, rfl⟩ := Option.map_eq_some_iff.mp here
  rw [restored] at media
  obtain ⟨before, rfl, own⟩ := media_of_restored restored media
  have arrived : (atUs, before) ∈ mediaArrivals rtc batch.arrivals := by
    refine List.mem_filterMap.mpr ⟨_, inside, ?_⟩
    simp only [own, if_true, Option.map_some]
  obtain ⟨frame, ofSent, packet, ofFrame, brought⟩ := brings _ arrived
  rw [restore_of_brings fits apart (primary frame ofSent packet ofFrame) own brought] at restored
  exact ⟨frame, ofSent, Option.some.inj restored ▸ ofFrame⟩

end WeakNetVideo
