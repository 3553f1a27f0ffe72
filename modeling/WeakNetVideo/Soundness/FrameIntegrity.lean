import WeakNetVideo.Proofs.Assembly

/-! # Frame integrity end to end

Between a sender and a receiver there is a channel that drops, delays, reorders and duplicates. Every
frame that comes out is the list of packets that one call of the sender put in, and every other
message of a batch is passed on once and in order.
-/

namespace WeakNetVideo

variable {rtc : Rtc} {sent : List SentFrame} {r : Receiver}

/-- The frames of one batch, as the sent frames they are. -/
private theorem wholes_of_frames {frames : List FrameAssembly}
    (all : ∀ frame ∈ frames, ∃ whole ∈ sent, frame.packets = whole.packets.map some) :
    ∃ wholes : List SentFrame, (∀ whole ∈ wholes, whole ∈ sent) ∧
      frames.flatMap FrameAssembly.packets = wholes.flatMap fun whole => whole.packets.map some := by
  induction frames with
  | nil => exact ⟨[], by simp, rfl⟩
  | cons frame frames ih =>
    obtain ⟨whole, member, packets⟩ := all frame (List.mem_cons_self ..)
    obtain ⟨wholes, inside, rest⟩ := ih fun other there => all other (List.mem_cons_of_mem _ there)
    refine ⟨whole :: wholes, fun other there => ?_, by rw [List.flatMap_cons, List.flatMap_cons, packets, rest]⟩
    rcases List.mem_cons.mp there with rfl | there
    · exact member
    · exact inside other there

/-- The packets of sent frames are media. -/
private theorem filter_wholes (wire : Wire rtc sent) {wholes : List SentFrame}
    (inside : ∀ whole ∈ wholes, whole ∈ sent) :
    (wholes.flatMap fun whole => whole.packets.map some).filter (fun pointer => !isRtp rtc pointer) =
      [] := by
  rw [List.filter_eq_nil_iff]
  intro pointer member
  obtain ⟨whole, there, packet⟩ := List.mem_flatMap.mp member
  obtain ⟨message, of_whole, rfl⟩ := List.mem_map.mp packet
  rw [(wire.stamped whole (inside whole there)).media message of_whole]
  decide

/-- What a batch leaves in `messages` when it comes after a run of calls. -/
def passedOn (rtc : Rtc) (r : Receiver) (first : List ReceiverCall) (batch : Batch) : List MessagePtr :=
  (((receiverCalls rtc).final r first).receiverIncoming rtc batch).2.messages

/-- The messages of a batch that are not media. -/
def otherMessages (rtc : Rtc) (messages : List MessagePtr) : List MessagePtr :=
  messages.filter fun pointer => !isRtp rtc pointer

/-- Over every run of calls whose media packets the sender has stamped, each frame handed on is one
sent frame; a batch leaves its other messages, in order, and then whole sent frames. -/
theorem emitted_eq_sent (demultiplexes : rtc.DemultiplexesBySecondByte) (senderRun : List SenderCall)
    (stampable : ∀ call ∈ senderRun, call.Stampable rtc)
    (short : (sentFrames rtc {} senderRun).length < 2 ^ 32) (recoveryTimeoutMs : ℤ)
    (calls : List ReceiverCall) (delivers : Delivers rtc (sentFrames rtc {} senderRun) calls) :
    (∀ frame ∈ emitted rtc (.new recoveryTimeoutMs) calls,
        ∃ whole ∈ sentFrames rtc {} senderRun, frame.packets = whole.packets.map some) ∧
      ∀ (first : List ReceiverCall) (batch : Batch) (rest : List ReceiverCall),
        calls = first ++ .incoming batch :: rest →
          otherMessages rtc (passedOn rtc (.new recoveryTimeoutMs) first batch) =
              otherMessages rtc (batch.arrivals.map Prod.snd) ∧
            ∃ wholes : List SentFrame, (∀ whole ∈ wholes, whole ∈ sentFrames rtc {} senderRun) ∧
              passedOn rtc (.new recoveryTimeoutMs) first batch =
                otherMessages rtc (batch.arrivals.map Prod.snd) ++
                  wholes.flatMap fun whole => whole.packets.map some := by
  have wire := wire_sentFrames demultiplexes stampable short
  have delivered := delivered_runEvents delivers
  have start := faithful_new (sentFrames rtc {} senderRun) recoveryTimeoutMs
  constructor
  · intro frame member
    rw [emitted_eq] at member
    obtain ⟨whole, inside, _, _, packets⟩ := emitted_run wire start delivered frame member
    exact ⟨whole, inside, packets⟩
  · rintro first batch rest rfl
    rw [runEvents, List.flatMap_append, List.flatMap_cons] at delivered
    simp only [passedOn, incoming_messages, final_calls, controlMessages, otherMessages]
    have faithful := faithful_run wire start fun event member =>
      delivered event (List.mem_append_left _ member)
    have frames : ∀ frame ∈ (((receiverMachine rtc).final (.new recoveryTimeoutMs)
        (runEvents rtc first)).receiverIncoming rtc batch).2.output.frames,
        ∃ whole ∈ sentFrames rtc {} senderRun, frame.packets = whole.packets.map some := by
      intro frame member
      rw [show ∀ s : Receiver, s.receiverIncoming rtc batch = s.call rtc (.incoming batch) from
        fun _ => rfl, call_frames] at member
      obtain ⟨whole, inside, _, _, packets⟩ := emitted_run wire faithful
        (fun event there => delivered event (List.mem_append_right _ (List.mem_append_left _ there)))
        frame member
      exact ⟨whole, inside, packets⟩
    obtain ⟨wholes, inside, same⟩ := wholes_of_frames frames
    rw [same]
    refine ⟨?_, wholes, inside, rfl⟩
    rw [List.filter_append, filter_wholes wire inside, List.append_nil, List.filter_filter]
    simp only [Bool.and_self]

/-- A keyframe of two packets and a frame of one. -/
def twoFrames : List SenderCall :=
  [.setOutgoingFrame 1 true, .outgoing [some (Rtp.packet 1 false [1]), some (Rtp.packet 2 true [2])],
    .setOutgoingFrame 1 false, .outgoing [some (Rtp.packet 3 true [3])]]

theorem stampable_twoFrames : ∀ call ∈ twoFrames, call.Stampable Rtc.rfc5761 := by
  intro call member
  simp only [twoFrames, List.mem_cons, List.not_mem_nil, or_false] at member
  rcases member with rfl | rfl | rfl | rfl
  · trivial
  · refine ⟨by decide, fun message inside _ => ?_⟩
    simp only [List.mem_cons, Option.some.injEq, List.not_mem_nil, or_false] at inside
    rcases inside with rfl | rfl <;> exact bare_packet _ _ _
  · trivial
  · exact stampable_packet 3 true 3

/-- Two frames that arrive together, twice over, come out once each and whole. -/
theorem emitted_eq_sent_twoFrames :
    let sent := sentFrames Rtc.rfc5761 {} twoFrames
    let calls := [deliverTogether 1000 sent, deliverTogether 2000 [], deliverTogether 3000 sent]
    (emitted Rtc.rfc5761 (.new 1000) calls).map FrameAssembly.frameId = [1, 2] ∧
      ∀ frame ∈ emitted Rtc.rfc5761 (.new 1000) calls,
        ∃ whole ∈ sent, frame.packets = whole.packets.map some := by
  refine ⟨by decide +kernel, ?_⟩
  refine (emitted_eq_sent Rtc.rfc5761_demultiplexes twoFrames stampable_twoFrames (by decide) 1000 _
    ?_).1
  apply delivers_together fun _ member => member
  apply delivers_together fun _ member => absurd member List.not_mem_nil
  exact delivers_together (fun _ member => member) (delivers_nil _ _)

end WeakNetVideo
