import WeakNetVideo.Proofs.FeedbackIntervals
import WeakNetVideo.Proofs.NumberedPackets

/-! # The feedback loop

The sender numbers its packets, the receiver reports the numbers that come in, and the sender's estimator
holds the loss of the last report that comes back. Whatever the network does to packets and reports, this is
never less than what was lost, and it is more just where a report tells of a packet that came before its
interval.
-/

namespace WeakNetVideo

/-- The session after a run. -/
abbrev sessionAfter (rtc : Rtc) (structs : RtcpStructs) (maxVideoKbps : ℤ) (events : List SessionEvent) :
    SenderSession :=
  (senderSessionMachine rtc structs).final (.start maxVideoKbps) events

/-- The messages of some that carry a transport number. -/
def stampedMessages (rtc : Rtc) (messages : List Passing) : List Message :=
  (messages.filterMap Passing.message).filter fun message => (readTwccSequence rtc (some message)).isSome

/-- A call of `incoming` at the receiver. Its messages with a number are packets that were sent, told by
their places; they may come in any order, more than once or not at all. -/
structure NumberedDelivery (rtc : Rtc) (sent : List Message) where
  messages : List Passing
  atUs : ℤ
  places : List ℕ
  carries : List.Forall₂ (fun place message => ∃ packet, sent[place]? = some packet ∧ message.bytes = packet.bytes)
    places (stampedMessages rtc messages)

/-- Places are counted from zero, numbers from one. -/
def NumberedDelivery.arrivals {rtc : Rtc} {sent : List Message} (delivery : NumberedDelivery rtc sent) :
    NumberedArrivals :=
  ⟨delivery.places.map (· + 1), delivery.atUs⟩

/-- The statistics handler of the receiver over its calls, with the feedback that it sends. -/
def receiverStatistics (rtc : Rtc) (structs : RtcpStructs) :
    Transducer MediaStatisticsHandler (List Passing × ℤ) (Option Message) where
  step h call :=
    let (next, _, feedback) := h.incoming rtc structs call.1 call.2
    (next, feedback)

/-- The feedback that the receiver sends in a run. -/
def sentBack (rtc : Rtc) (structs : RtcpStructs) {sent : List Message} (deliveries : List (NumberedDelivery rtc sent)) :
    List Message :=
  ((receiverStatistics rtc structs).outputs { direction := .receiver }
    (deliveries.map fun delivery => (delivery.messages, delivery.atUs))).reduceOption

/-- The loss that a call reports, as the estimator keeps it. -/
def EstimatorCall.lossReport (call : EstimatorCall) : Option TransportLossSample :=
  (call.apply {}).remoteTransportLoss

/-- The loss that is reported by a message which comes in at the sender. -/
def Passing.lossReports (rtc : Rtc) (structs : RtcpStructs) (passing : Passing) : List TransportLossSample :=
  (observeRtcp rtc structs false passing).filterMap EstimatorCall.lossReport

/-- A message that comes in at the sender is feedback of the receiver, or reports no loss. -/
def Passing.Returned (rtc : Rtc) (structs : RtcpStructs) (feedback : List Message) (passing : Passing) : Prop :=
  (∃ message sent, passing.message = some message ∧ sent ∈ feedback ∧ message.bytes = sent.bytes) ∨
    passing.lossReports rtc structs = []

/-- What a feedback tells of its interval. -/
structure Tells (interval : FeedbackInterval) (feedback : TwccFeedback) : Prop where
  count : feedback.packetCount.toNat = interval.told.length
  made : ∃ r, MadeFrom feedback r ∧ missingFrom feedback r = interval.missing

/-- The handler holds the stamps of the collector's numbers. -/
structure HoldsNumbers (s : Collector) (r : TwccReceiver) : Prop where
  clock : r.lastFeedbackUs = s.lastFeedbackUs
  pending : r.pending.map TwccSample.sequence = s.waiting.map UInt16.ofNat

variable {rtc : Rtc} {structs : RtcpStructs} {sent : List Message} {s : Collector} {r : TwccReceiver}
  {interval : FeedbackInterval} {feedback : TwccFeedback}

/-! ## The receiver -/

/-- The handler considers a feedback where the collector considers an interval. -/
private theorem collects_report {arrived waiting : List ℕ} {lastFeedbackUs atUs : ℤ}
    (clock : r.lastFeedbackUs = lastFeedbackUs)
    (pending : r.pending.map TwccSample.sequence = waiting.map UInt16.ofNat) :
    let step : Collector × Option FeedbackInterval :=
      if nonempty : waiting = [] then (⟨lastFeedbackUs, arrived, waiting⟩, none)
      else if atUs - lastFeedbackUs < twccFeedbackIntervalUs then (⟨lastFeedbackUs, arrived, waiting⟩, none)
      else (⟨atUs, arrived, []⟩, some ⟨arrived, waiting, nonempty⟩)
    HoldsNumbers step.1 (r.maybeSendTwccFeedback atUs).1 ∧
      ∀ feedback ∈ (r.maybeSendTwccFeedback atUs).2,
        ∃ interval, step.2 = some interval ∧ (interval.Near → Tells interval feedback) := by
  intro step
  cases queue : r.pending with
  | nil =>
    have empty : waiting = [] := by simpa [queue] using pending.symm
    have silent : step = (⟨lastFeedbackUs, arrived, waiting⟩, none) := dif_pos empty
    rw [silent, TwccReceiver.maybeSendTwccFeedback, queue]
    exact ⟨⟨clock, pending⟩, fun _ none_ => absurd none_ (Option.not_mem_none _)⟩
  | cons front rest =>
    have nonempty : waiting ≠ [] := by
      rintro empty
      simp [queue, empty] at pending
    by_cases early : atUs - lastFeedbackUs < twccFeedbackIntervalUs
    · have silent : step = (⟨lastFeedbackUs, arrived, waiting⟩, none) := by
        simp only [step, dif_neg nonempty, if_pos early]
      have unchanged : r.maybeSendTwccFeedback atUs = (r, none) := by
        simp only [TwccReceiver.maybeSendTwccFeedback, queue, clock, if_pos early]
      rw [silent, unchanged]
      exact ⟨⟨clock, pending⟩, fun _ none_ => absurd none_ (Option.not_mem_none _)⟩
    · have ended : step = (⟨atUs, arrived, []⟩, some ⟨arrived, waiting, nonempty⟩) := by
        simp only [step, dif_neg nonempty, if_neg early]
      rw [ended]
      refine ⟨?_, fun feedback out => ⟨_, rfl, fun near => ?_⟩⟩
      · simp only [TwccReceiver.maybeSendTwccFeedback, queue, clock, if_neg early]
        split_ifs <;> exact ⟨rfl, rfl⟩
      · obtain ⟨count, missing⟩ := @tells_of_sent ⟨arrived, waiting, nonempty⟩ _ _ _ pending near out
        exact ⟨count, r, madeFrom_of_sent out, missing⟩

private theorem collects_incoming (collects : HoldsNumbers s r) (call : NumberedCall rtc) :
    HoldsNumbers (collectorMachine.step s call.arrivals).1 ((twccMachine rtc).step r call.call).1 ∧
      ∀ feedback ∈ ((twccMachine rtc).step r call.call).2,
        ∃ interval, (collectorMachine.step s call.arrivals).2 = some interval ∧
          (interval.Near → Tells interval feedback) := by
  obtain ⟨clock, pending⟩ := observe_all rtc r call.call.arrivals
  refine collects_report (clock.trans collects.clock) ?_
  rw [pending, call.carries, collects.pending, ← map_pushLatest]
  rfl

/-- Every feedback of a run tells of one of its intervals. -/
private theorem tells_of_run (collects : HoldsNumbers s r) (calls : List (NumberedCall rtc))
    (near : ∀ interval ∈ (collectorMachine.outputs s (calls.map NumberedCall.arrivals)).reduceOption,
      interval.Near) :
    ∀ feedback ∈ sentFeedbacks rtc r calls,
      ∃ interval ∈ (collectorMachine.outputs s (calls.map NumberedCall.arrivals)).reduceOption,
        Tells interval feedback := by
  induction calls generalizing s r with
  | nil => simp [sentFeedbacks, List.reduceOption]
  | cons call calls ih =>
    obtain ⟨next, told⟩ := collects_incoming collects call
    rw [List.map_cons, Transducer.outputs_cons] at near ⊢
    rw [sentFeedbacks, List.map_cons, Transducer.outputs_cons]
    simp only [List.reduceOption_mem_iff, List.mem_cons] at near ⊢
    have later := ih next fun interval member => near interval (.inr (List.reduceOption_mem_iff.mp member))
    rintro feedback (out | rest)
    · obtain ⟨interval, ended, tells⟩ := told feedback out.symm
      exact ⟨interval, .inl ended.symm, tells (near interval (.inl ended.symm))⟩
    · obtain ⟨interval, member, tells⟩ := later feedback (List.reduceOption_mem_iff.mpr rest)
      exact ⟨interval, .inr (List.reduceOption_mem_iff.mp member), tells⟩

/-- The part of a call of `incoming` that the stamps have. -/
private def twccCallOf (call : List Passing × ℤ) : TwccCall :=
  ⟨call.1.map fun passing => (passing.atUs, passing.message), call.2⟩

/-- The receiver's handler observes the stamps and considers a feedback. -/
private theorem step_receiver {h : MediaStatisticsHandler} (receives : h.direction = .receiver)
    (call : List Passing × ℤ) :
    ((receiverStatistics rtc structs).step h call).1 =
        { h with twcc := ((twccMachine rtc).step h.twcc (twccCallOf call)).1 } ∧
      ((receiverStatistics rtc structs).step h call).2 =
        ((twccMachine rtc).step h.twcc (twccCallOf call)).2.map TwccFeedback.message := by
  obtain ⟨messages, atUs⟩ := call
  have all : (h.observeAll rtc structs messages).1 = { h with
      twcc := messages.foldl (fun r passing => r.observeTwccExtension rtc passing.atUs passing.message) h.twcc } := by
    induction messages generalizing h with
    | nil => rfl
    | cons passing messages ih =>
      simp only [MediaStatisticsHandler.observeAll, MediaStatisticsHandler.observeIncoming, receives,
        List.foldl_cons]
      rw [ih rfl]
  simp only [receiverStatistics, MediaStatisticsHandler.incoming, twccMachine, TwccReceiver.incoming, twccCallOf, all,
    receives, List.foldl_map, and_self]

private theorem outputs_receiver (h : MediaStatisticsHandler) (receives : h.direction = .receiver)
    (calls : List (List Passing × ℤ)) :
    (receiverStatistics rtc structs).outputs h calls =
      ((twccMachine rtc).outputs h.twcc (calls.map twccCallOf)).map (Option.map TwccFeedback.message) := by
  induction calls generalizing h with
  | nil => rfl
  | cons call calls ih =>
    obtain ⟨next, out⟩ := @step_receiver rtc structs h receives call
    rw [Transducer.outputs_cons, List.map_cons, Transducer.outputs_cons, List.map_cons, out, next]
    exact congrArg _ (ih { h with twcc := _ } receives)

/-- A delivery as a call whose messages carry the numbers of its places. -/
private theorem carries_of_delivery
    (reads : ∀ (place : ℕ) (packet : Message), sent[place]? = some packet →
      readTwccSequence rtc (some packet) = some (UInt16.ofNat (place + 1)))
    (delivery : NumberedDelivery rtc sent) :
    ((delivery.messages.map fun passing => (passing.atUs, passing.message)).filterMap fun arrival =>
        readTwccSequence rtc arrival.2) = (delivery.places.map (· + 1)).map UInt16.ofNat := by
  have stamped (messages : List Passing) :
      ((messages.map fun passing => (passing.atUs, passing.message)).filterMap fun arrival =>
        readTwccSequence rtc arrival.2) =
      (stampedMessages rtc messages).filterMap fun message => readTwccSequence rtc (some message) := by
    induction messages with
    | nil => rfl
    | cons passing messages ih =>
      rw [List.map_cons, List.filterMap_cons, ih, stampedMessages, stampedMessages, List.filterMap_cons]
      cases passing.message with
      | none => rfl
      | some message =>
        dsimp only
        cases number : readTwccSequence rtc (some message) with
        | none => rw [List.filter_cons_of_neg (by simp [number])]
        | some sequence => simp only [List.filter_cons_of_pos, number, Option.isSome_some, List.filterMap_cons]
  rw [stamped]
  have carries := delivery.carries
  generalize delivery.places = places, stampedMessages rtc delivery.messages = messages at carries
  induction carries with
  | nil => rfl
  | @cons place message _ _ own _ ih =>
    obtain ⟨packet, found, same⟩ := own
    have number : readTwccSequence rtc (some message) = some (UInt16.ofNat (place + 1)) := by
      rw [← reads place packet found]
      simp only [readTwccSequence, same]
    simp only [List.filterMap_cons, number, ih, List.map_cons]

/-- What the receiver sends back tells of the intervals of its run. -/
private theorem tells_of_sentBack (structs : RtcpStructs)
    (reads : ∀ (place : ℕ) (packet : Message), sent[place]? = some packet →
      readTwccSequence rtc (some packet) = some (UInt16.ofNat (place + 1)))
    (deliveries : List (NumberedDelivery rtc sent))
    (near : ∀ interval ∈ feedbackIntervals (deliveries.map NumberedDelivery.arrivals), interval.Near) :
    ∀ message ∈ sentBack rtc structs deliveries,
      ∃ interval ∈ feedbackIntervals (deliveries.map NumberedDelivery.arrivals), ∃ feedback : TwccFeedback,
        message = feedback.message ∧ Tells interval feedback := by
  let call (delivery : NumberedDelivery rtc sent) : NumberedCall rtc :=
    ⟨⟨delivery.messages.map fun passing => (passing.atUs, passing.message), delivery.atUs⟩,
      delivery.places.map (· + 1), carries_of_delivery reads delivery⟩
  have arrivals : (deliveries.map call).map NumberedCall.arrivals = deliveries.map NumberedDelivery.arrivals := by
    rw [List.map_map]
    rfl
  have messages : sentBack rtc structs deliveries =
      (sentFeedbacks rtc {} (deliveries.map call)).map TwccFeedback.message := by
    rw [sentBack, outputs_receiver _ rfl, List.reduceOption_map, sentFeedbacks, List.map_map, List.map_map]
    rfl
  intro message member
  rw [messages] at member
  obtain ⟨feedback, out, rfl⟩ := List.mem_map.mp member
  obtain ⟨interval, inside, tells⟩ := @tells_of_run rtc {} {} ⟨rfl, rfl⟩ (deliveries.map call)
    (by rw [arrivals]; exact near) feedback out
  rw [arrivals] at inside
  exact ⟨interval, inside, feedback, rfl, tells⟩

/-! ## The sender -/

/-- What an estimator holds, it has held before or heard in a call. -/
private theorem remoteTransportLoss_foldl {e : NetworkQualityEstimator} {calls : List EstimatorCall}
    {loss : TransportLossSample} (held : (calls.foldl EstimatorCall.apply e).remoteTransportLoss = some loss) :
    e.remoteTransportLoss = some loss ∨ loss ∈ calls.filterMap EstimatorCall.lossReport := by
  induction calls generalizing e with
  | nil => exact .inl held
  | cons call calls ih =>
    rcases ih held with before | heard
    · cases call with
      | remoteTransportLoss atUs expectedPackets lostPackets =>
        obtain rfl := Option.some.inj before
        exact .inr List.mem_cons_self
      | _ => exact .inl before
    · refine .inr ?_
      rw [List.filterMap_cons]
      split
      · exact heard
      · exact List.mem_cons_of_mem _ heard

/-- Sending packets reports no loss. -/
private theorem outgoing_sender {h : MediaStatisticsHandler} (sends : h.direction = .sender)
    (passings : List Passing) :
    (h.outgoing rtc structs passings).1.direction = .sender ∧
      (h.outgoing rtc structs passings).2.2.filterMap EstimatorCall.lossReport = [] := by
  induction passings generalizing h with
  | nil => exact ⟨sends, rfl⟩
  | cons passing passings ih =>
    have own : (h.observeOutgoing rtc structs passing).1.direction = .sender ∧
        (h.observeOutgoing rtc structs passing).2.2.filterMap EstimatorCall.lossReport = [] := by
      simp only [MediaStatisticsHandler.observeOutgoing, sends]
      cases passing.message with
      | none => exact ⟨sends, rfl⟩
      | some message =>
        refine ⟨rfl, ?_⟩
        simp only [observeRtp]
        split_ifs <;> rfl
    obtain ⟨still, none_⟩ := ih own.1
    refine ⟨still, ?_⟩
    simp only [MediaStatisticsHandler.outgoing, List.filterMap_append, own.2, none_, List.append_nil]

/-- What a session holds, it has held before the step or heard in it. -/
private theorem remoteTransportLoss_step {s : SenderSession} (sends : s.statistics.direction = .sender)
    (event : SessionEvent) :
    (s.step rtc structs event).1.statistics.direction = .sender ∧
      ∀ loss, (s.step rtc structs event).1.estimator.remoteTransportLoss = some loss →
        s.estimator.remoteTransportLoss = some loss ∨
          ∃ messages atUs, event = .incoming messages atUs ∧
            ∃ passing ∈ messages, loss ∈ passing.lossReports rtc structs := by
  cases event with
  | sending event own => exact ⟨sends, fun _ => .inl⟩
  | send outcome packets =>
    change (s.send rtc structs outcome packets).1.statistics.direction = .sender ∧
      ∀ loss, (s.send rtc structs outcome packets).1.estimator.remoteTransportLoss = some loss → _
    rw [SenderSession.send]
    split
    · split_ifs
      · exact ⟨sends, fun _ => .inl⟩
      · obtain ⟨still, none_⟩ := @outgoing_sender rtc structs s.statistics sends packets
        refine ⟨still, fun loss held => .inl ?_⟩
        refine (remoteTransportLoss_foldl held).resolve_right fun heard => ?_
        rw [none_] at heard
        contradiction
    · exact ⟨sends, fun _ => .inl⟩
  | incoming messages atUs =>
    change (s.incoming rtc structs messages atUs).statistics.direction = .sender ∧
      ∀ loss, (s.incoming rtc structs messages atUs).estimator.remoteTransportLoss = some loss → _
    rw [SenderSession.incoming, incoming_sender sends]
    refine ⟨sends, fun loss held => ?_⟩
    rcases remoteTransportLoss_foldl held with before | heard
    · exact .inl before
    · rw [List.filterMap_flatMap] at heard
      obtain ⟨passing, member, report⟩ := List.mem_flatMap.mp heard
      exact .inr ⟨messages, atUs, rfl, passing, member, report⟩
  | takeSnapshot atUs =>
    change (s.takeSnapshot atUs).statistics.direction = .sender ∧
      ∀ loss, (s.takeSnapshot atUs).estimator.remoteTransportLoss = some loss → _
    rw [SenderSession.takeSnapshot]
    split <;> exact ⟨sends, fun _ => .inl⟩
  | updateProfile =>
    change s.updateProfile.statistics.direction = .sender ∧
      ∀ loss, s.updateProfile.estimator.remoteTransportLoss = some loss → _
    rw [SenderSession.updateProfile]
    split <;> exact ⟨sends, fun _ => .inl⟩
  | updateNetworkQuality =>
    change s.updateNetworkQuality.statistics.direction = .sender ∧
      ∀ loss, s.updateNetworkQuality.estimator.remoteTransportLoss = some loss → _
    rw [SenderSession.updateNetworkQuality]
    split <;> exact ⟨sends, fun _ => .inl⟩

/-- What a run comes to hold was reported by a message that came in. -/
private theorem remoteTransportLoss_run {s : SenderSession} (sends : s.statistics.direction = .sender)
    (nothing : s.estimator.remoteTransportLoss = none) (events : List SessionEvent) {loss : TransportLossSample}
    (held : ((senderSessionMachine rtc structs).final s events).estimator.remoteTransportLoss = some loss) :
    ∃ messages atUs, .incoming messages atUs ∈ events ∧
      ∃ passing ∈ messages, loss ∈ passing.lossReports rtc structs := by
  have run : s.estimator.remoteTransportLoss = some loss ∨ ∃ messages atUs, .incoming messages atUs ∈ events ∧
      ∃ passing ∈ messages, loss ∈ passing.lossReports rtc structs := by
    clear nothing
    induction events generalizing s with
    | nil => exact .inl held
    | cons event events ih =>
      obtain ⟨still, heard⟩ := @remoteTransportLoss_step rtc structs s sends event
      rcases ih still held with before | ⟨messages, atUs, member, report⟩
      · rcases heard loss before with before | ⟨messages, atUs, rfl, report⟩
        · exact .inl before
        · exact .inr ⟨messages, atUs, List.mem_cons_self, report⟩
      · exact .inr ⟨messages, atUs, List.mem_cons_of_mem _ member, report⟩
  refine run.resolve_left fun before => ?_
  rw [nothing] at before
  contradiction

/-! ## Round the loop -/

/-- The bytes of a feedback, in front of any memory, are read as what it tells. -/
private theorem lossReports_of_tells (tells : Tells interval feedback) {passing : Passing} {message : Message}
    (comes : passing.message = some message) (bytes : message.bytes = feedback.message.bytes) :
    ∀ loss ∈ passing.lossReports rtc structs, loss.expectedPackets.toNat = interval.told.length ∧
      loss.lostPackets.toNat = interval.missing := by
  obtain ⟨count, r, made, missing⟩ := tells
  obtain ⟨lower, upper⟩ := made.words_bounds
  obtain ⟨_, _, _, _, statusCount, _⟩ := read_message feedback passing.behind
  obtain ⟨lost, expected⟩ := observeChunks_message made passing.behind
  have most := made.most
  have fewer := interval.missing_le
  have whole : feedback.packetCount.toUInt32.toNat = interval.told.length := by
    rw [UInt16.toNat_toUInt32, count]
  have part : (UInt32.ofNat interval.missing).toNat = interval.missing := by
    rw [UInt32.toNat_ofNat', Nat.mod_eq_of_lt (by omega)]
  have kept : EstimatorCall.lossReport
      (.remoteTransportLoss passing.atUs feedback.packetCount.toUInt32 (UInt32.ofNat interval.missing)) =
        some ⟨passing.atUs, feedback.packetCount.toUInt32, UInt32.ofNat interval.missing⟩ := by
    change some (TransportLossSample.mk _ _ (if _ ≤ _ then _ else _)) = _
    rw [if_pos (by rw [UInt32.le_iff_toNat_le, whole, part]; exact fewer)]
  intro loss reported
  simp only [Passing.lossReports, observeRtcp, comes, Bool.false_eq_true, if_false] at reported
  split at reported
  · contradiction
  · rw [bytes, show feedback.message.bytes.length = feedback.words * 4 from length_message feedback] at reported
    rw [observeRtcpPacket_message structs made passing.behind, observeTwccFeedback,
      if_neg (by dsimp only; omega)] at reported
    simp only [Nat.zero_add, statusCount, expected] at reported
    rw [lost, missing] at reported
    have some_ : feedback.packetCount.toUInt32 > 0 := by
      rw [gt_iff_lt, UInt32.lt_iff_toNat_lt, whole]
      exact interval.length_told_pos
    rw [if_pos some_, List.filterMap_cons_none rfl, List.map_cons, List.filterMap_cons_none rfl,
      List.map_singleton] at reported
    simp only [EstimatorUpdate.call, List.filterMap_cons_some kept, List.filterMap_nil, List.mem_singleton] at reported
    rw [reported]
    exact ⟨whole, part⟩

/-- The loss tells of an interval of a run: of every number from its first packet to the newest, and never of
less than was lost among them. It tells of more exactly when one of them came before the interval, which does
not happen where packets come in order. -/
structure TellsTruly (all : List ℕ) (interval : FeedbackInterval) (loss : TransportLossSample) : Prop where
  run : interval.Of all
  expected : loss.expectedPackets.toNat = interval.newest + 1 - interval.first
  covers : interval.lost ≤ loss.lostPackets.toNat
  exact_iff : loss.lostPackets.toNat = interval.lost ↔
    ∀ number ∈ interval.told, number ∈ interval.arrived → number ∈ interval.waiting
  inOrder : interval.arrived.Pairwise (· < ·) → loss.lostPackets.toNat = interval.lost

/-- Whatever the network drops, reorders, repeats or retransmits, the loss that the sender's estimator holds
at any time of a run tells truly of an interval of the receiver. -/
theorem remoteTransportLoss_tellsTruly (demultiplexes : rtc.DemultiplexesBySecondByte) (structs : RtcpStructs)
    (maxVideoKbps : ℤ) {events : List SessionEvent} (stampable : ∀ event ∈ events, event.Stampable rtc)
    (deliveries : List (NumberedDelivery rtc ((SenderSession.start maxVideoKbps).numberedPackets rtc structs events)))
    (near : ∀ interval ∈ feedbackIntervals (deliveries.map NumberedDelivery.arrivals), interval.Near)
    (returned : ∀ messages atUs, .incoming messages atUs ∈ events → ∀ passing ∈ messages,
      passing.Returned rtc structs (sentBack rtc structs deliveries))
    {before : List SessionEvent} (time : before <+: events) :
    ∀ loss ∈ (sessionAfter rtc structs maxVideoKbps before).estimator.remoteTransportLoss,
      ∃ interval ∈ feedbackIntervals (deliveries.map NumberedDelivery.arrivals),
        TellsTruly (deliveries.flatMap fun delivery => delivery.arrivals.numbers) interval loss := by
  intro loss held
  have numbers : (SenderSession.start maxVideoKbps).NumbersFrom 1 := ⟨rfl, rfl⟩
  obtain ⟨messages, atUs, came, passing, member, reported⟩ := remoteTransportLoss_run rfl rfl before held
  rcases returned messages atUs (time.mem came) passing member with ⟨message, sent, comes, back, bytes⟩ | none_
  · obtain ⟨interval, inside, feedback, rfl, tells⟩ := tells_of_sentBack structs
      (fun _ _ found => readTwccSequence_numberedPackets demultiplexes structs numbers stampable found)
      deliveries near sent back
    obtain ⟨expected, lost⟩ := lossReports_of_tells tells comes bytes loss reported
    have of_ := of_feedbackIntervals _ interval inside
    rw [List.flatMap_map] at of_
    refine ⟨interval, inside, of_, by rw [expected, interval.length_told], ?_, ?_, ?_⟩
    · rw [lost]
      exact interval.lost_le_missing of_.suffix.subset
    · rw [lost]
      exact interval.missing_eq_lost_iff of_.suffix.subset
    · rw [lost]
      exact interval.missing_eq_lost_of_ordered of_.suffix
  · rw [none_] at reported
    contradiction

/-! ## A run -/

/-- An encoder that makes a keyframe of a forced frame. -/
def keyReply : EncoderReply where
  packet forced := some ⟨[0x65], forced⟩
  forced := by simp

/-- One frame goes out in four packets. -/
def frameOut : List SessionEvent :=
  [.sending .trackOpened trivial, .sending (.beginTurn 1000) trivial, .sending .exchange trivial,
    .sending (.encode keyReply) trivial,
    .send .sent ([1, 2, 3, 4].map fun number => ⟨1000, some (Rtp.packet number false [0x65]), []⟩)]

/-- A packet of the frame, as it goes out. -/
def wirePacket (place : ℕ) : Message :=
  ((SenderSession.start 2000).numberedPackets .rfc5761 .oneBlock frameOut).getD place (Rtp.packet 0 false [])

/-- The feedback of the receiver, who got the first packet and the last. -/
def halfLost : Message :=
  (TwccFeedback.mk 1 4 3 0 [0x2001, 0x0002, 0x2001] 2).message

/-- It comes back, and a turn of the statistics loop goes by. -/
def lossyTurn : List SessionEvent :=
  frameOut ++ [.incoming [⟨300000, some halfLost, []⟩] 300000, .takeSnapshot 1000000, .updateProfile,
    .updateNetworkQuality]

private theorem lossyTurn_sends : (SenderSession.start 2000).numberedPackets .rfc5761 .oneBlock lossyTurn =
    [0, 1, 2, 3].map wirePacket := by
  decide +kernel

def firstAndLast :
    NumberedDelivery .rfc5761 ((SenderSession.start 2000).numberedPackets .rfc5761 .oneBlock lossyTurn) where
  messages := [⟨250000, some (wirePacket 0), []⟩, ⟨250000, some (wirePacket 3), []⟩]
  atUs := 250000
  places := [0, 3]
  carries := by
    have stamped : stampedMessages .rfc5761 [⟨250000, some (wirePacket 0), []⟩, ⟨250000, some (wirePacket 3), []⟩] =
        [wirePacket 0, wirePacket 3] := by decide +kernel
    rw [lossyTurn_sends, stamped]
    exact .cons ⟨_, rfl, rfl⟩ (.cons ⟨_, rfl, rfl⟩ .nil)

theorem lossyTurn_stampable : ∀ event ∈ lossyTurn, event.Stampable .rfc5761 := by
  have bare : ∀ number ∈ [1, 2, 3, 4], Stampable .rfc5761 (Rtp.packet number false [0x65]) := by
    intro number member
    simp only [List.mem_cons, List.not_mem_nil, or_false] at member
    rcases member with rfl | rfl | rfl | rfl <;> constructor <;> decide +kernel
  intro event member
  simp only [lossyTurn, frameOut, List.cons_append, List.nil_append, List.mem_cons, List.not_mem_nil,
    or_false] at member
  rcases member with rfl | rfl | rfl | rfl | rfl | rfl | rfl | rfl | rfl
  case inr.inr.inr.inr.inl =>
    intro passing inside message some_ _
    obtain ⟨number, among, rfl⟩ := List.mem_map.mp inside
    obtain rfl := Option.some.inj some_
    exact bare number among
  all_goals trivial

theorem lossyTurn_returned (messages : List Passing) (atUs : ℤ)
    (member : SessionEvent.incoming messages atUs ∈ lossyTurn) :
    ∀ passing ∈ messages, passing.Returned .rfc5761 .oneBlock (sentBack .rfc5761 .oneBlock [firstAndLast]) := by
  simp only [lossyTurn, frameOut, List.cons_append, List.nil_append, List.mem_cons, reduceCtorEq, false_or, or_false,
    List.not_mem_nil, SessionEvent.incoming.injEq] at member
  obtain ⟨rfl, rfl⟩ := member
  intro passing inside
  obtain rfl := List.mem_singleton.mp inside
  exact .inl ⟨halfLost, halfLost, rfl, by decide +kernel, rfl⟩

/-- Half of the packets of the interval are lost, and the report says so. -/
theorem remoteTransportLoss_tellsTruly_halfLost :
    (sessionAfter .rfc5761 .oneBlock 2000 lossyTurn).estimator.remoteTransportLoss = some ⟨300000, 4, 2⟩ ∧
    ∃ interval ∈ feedbackIntervals ([firstAndLast].map NumberedDelivery.arrivals),
      TellsTruly ([firstAndLast].flatMap fun delivery => delivery.arrivals.numbers) interval ⟨300000, 4, 2⟩ := by
  have held : (sessionAfter .rfc5761 .oneBlock 2000 lossyTurn).estimator.remoteTransportLoss =
      some ⟨300000, 4, 2⟩ := by decide +kernel
  exact ⟨held, remoteTransportLoss_tellsTruly Rtc.rfc5761_demultiplexes .oneBlock 2000 lossyTurn_stampable
    [firstAndLast] (by decide +kernel) lossyTurn_returned List.prefix_rfl _ held⟩

end WeakNetVideo
