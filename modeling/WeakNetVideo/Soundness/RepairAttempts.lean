import WeakNetVideo.Proofs.BurstProgress
import WeakNetVideo.Proofs.PollEntries
import WeakNetVideo.Proofs.ReceiverEvents

/-! # Repair attempts

A poll asks for the missing packets of a frame that is 120 ms old, or has ended, and not overdue. So a frame
that is given up has been asked for exactly when a poll came in that window, which a poll every 20 ms
guarantees for timeouts of 140 ms or more, and for no others.
-/

namespace WeakNetVideo

variable {rtc : Rtc} {recoveryTimeoutMs startUs periodUs firstSeenUs : ℤ} {events rest more : List ReceiverEvent}
  {id : UInt32} {frame : FrameAssembly}

/-- The receiver behind some events. -/
def stateBehind (rtc : Rtc) (recoveryTimeoutMs : ℤ) (events : List ReceiverEvent) : Receiver :=
  (receiverMachine rtc).final (.new recoveryTimeoutMs) events

/-- From some events on and through others, the assembly of an id that was opened at a time stays in the
buffer. -/
def KeptSince (rtc : Rtc) (recoveryTimeoutMs : ℤ) (before rest : List ReceiverEvent) (id : UInt32)
    (firstSeenUs : ℤ) : Prop :=
  ∀ first second, rest = first ++ second →
    ∃ frame, (stateBehind rtc recoveryTimeoutMs (before ++ first)).frames[id]? = some frame ∧
      frame.firstSeenUs = firstSeenUs

/-- A NACK has been sent for an assembly that is still in the buffer. -/
def AskedFor (rtc : Rtc) (recoveryTimeoutMs : ℤ) (events : List ReceiverEvent) (id : UInt32)
    (firstSeenUs : ℤ) : Prop :=
  ∃ before atUs rest frame nack, events = before ++ .poll atUs :: rest ∧
    KeptSince rtc recoveryTimeoutMs before (.poll atUs :: rest) id firstSeenUs ∧
    (stateBehind rtc recoveryTimeoutMs before).frames[id]? = some frame ∧
    nack ∈ (stateBehind rtc recoveryTimeoutMs before).polledNack atUs frame ∧
    nack ∈ ((stateBehind rtc recoveryTimeoutMs before).poll atUs).2.sent

/-- A poll has found the assembly incomplete and ended, or old enough, but not overdue. -/
def PolledInTime (rtc : Rtc) (recoveryTimeoutMs : ℤ) (events : List ReceiverEvent) (id : UInt32)
    (firstSeenUs : ℤ) : Prop :=
  ∃ before atUs rest frame, events = before ++ .poll atUs :: rest ∧
    KeptSince rtc recoveryTimeoutMs before (.poll atUs :: rest) id firstSeenUs ∧
    (stateBehind rtc recoveryTimeoutMs before).frames[id]? = some frame ∧ frame.packetCount ≠ 0 ∧
    frame.complete = false ∧ (frame.markerSeen = true ∨ nackDelayUs ≤ atUs - frame.firstSeenUs) ∧
    atUs - frame.firstSeenUs < (stateBehind rtc recoveryTimeoutMs before).recoveryTimeoutUs

/-- A drain gives up a frame of which some packets have come and some are missing. -/
structure GivenUp (r : Receiver) (drainUs : ℤ) (id : UInt32) (frame : FrameAssembly) : Prop where
  found : r.frames[id]? = some frame
  opened : frame.packetCount ≠ 0
  incomplete : frame.complete = false
  overdue : r.recoveryTimeoutUs ≤ drainUs - frame.firstSeenUs
  dropped : (r.drainCompleteFrames drainUs).1.frames[id]? = none

/-- For every frame that a drain of the run gives up. -/
def ForGivenUp (P : List ReceiverEvent → UInt32 → ℤ → Prop) (rtc : Rtc) (recoveryTimeoutMs : ℤ)
    (events : List ReceiverEvent) : Prop :=
  ∀ before drainUs after, events = before ++ .drain drainUs :: after →
    ∀ id frame, GivenUp (stateBehind rtc recoveryTimeoutMs before) drainUs id frame →
      P before id frame.firstSeenUs

/-- Every frame that is given up has been asked for. -/
def RepairAttempted (rtc : Rtc) (recoveryTimeoutMs : ℤ) (events : List ReceiverEvent) : Prop :=
  ForGivenUp (AskedFor rtc recoveryTimeoutMs) rtc recoveryTimeoutMs events

/-- The time of the last poll, or the start. -/
def pollTime (lastUs : ℤ) : ReceiverEvent → ℤ
  | .poll atUs => atUs
  | _ => lastUs

/-- The clock never reads more than a period behind the last poll, or the start. -/
def PolledEvery (periodUs : ℤ) : ℤ → List ReceiverEvent → Prop
  | _, [] => True
  | lastUs, event :: rest =>
    (∀ atUs ∈ readingOf event, lastUs ≤ atUs ∧ atUs ≤ lastUs + periodUs) ∧
      PolledEvery periodUs (pollTime lastUs event) rest

instance decidablePolledEvery : (periodUs lastUs : ℤ) → (events : List ReceiverEvent) →
    Decidable (PolledEvery periodUs lastUs events)
  | _, _, [] => .isTrue trivial
  | periodUs, lastUs, event :: rest =>
    @instDecidableAnd _ _ (Option.decidableForallMem _)
      (decidablePolledEvery periodUs (pollTime lastUs event) rest)

/-! ## Assemblies that stay -/

theorem stateBehind_append (first second : List ReceiverEvent) :
    stateBehind rtc recoveryTimeoutMs (first ++ second) =
      (receiverMachine rtc).final (stateBehind rtc recoveryTimeoutMs first) second :=
  Transducer.final_append _ _ _ _

theorem stateBehind_concat (events : List ReceiverEvent) (event : ReceiverEvent) :
    stateBehind rtc recoveryTimeoutMs (events ++ [event]) =
      ((stateBehind rtc recoveryTimeoutMs events).step rtc event).1 :=
  stateBehind_append events [event]

theorem KeptSince.append {before : List ReceiverEvent}
    (kept : KeptSince rtc recoveryTimeoutMs before rest id firstSeenUs)
    (more_kept : KeptSince rtc recoveryTimeoutMs (before ++ rest) more id firstSeenUs) :
    KeptSince rtc recoveryTimeoutMs before (rest ++ more) id firstSeenUs := by
  intro first second whole
  rcases List.append_eq_append_iff.mp whole with ⟨between, rfl, behind⟩ | ⟨between, here, -⟩
  · rw [← List.append_assoc]
    exact more_kept between second behind
  · exact kept first between here

/-- What has been asked for stays so while the assembly stays. -/
theorem AskedFor.append (asked : AskedFor rtc recoveryTimeoutMs events id firstSeenUs)
    (kept : KeptSince rtc recoveryTimeoutMs events more id firstSeenUs) :
    AskedFor rtc recoveryTimeoutMs (events ++ more) id firstSeenUs := by
  obtain ⟨before, atUs, rest, frame, nack, rfl, since, found, sent⟩ := asked
  exact ⟨before, atUs, rest ++ more, frame, nack, by simp, since.append kept, found, sent⟩

/-- An assembly that is there before and behind an event stays through it. -/
private theorem keptSince_step {event : ReceiverEvent} {before after : FrameAssembly}
    (found : (stateBehind rtc recoveryTimeoutMs events).frames[id]? = some before)
    (later : (stateBehind rtc recoveryTimeoutMs (events ++ [event])).frames[id]? = some after)
    (same : after.firstSeenUs = before.firstSeenUs) :
    KeptSince rtc recoveryTimeoutMs events [event] id before.firstSeenUs := by
  intro first second whole
  rcases first with _ | ⟨head, first⟩
  · exact ⟨before, by rwa [List.append_nil], rfl⟩
  · obtain ⟨rfl, nothing⟩ := List.cons.inj whole
    obtain ⟨rfl, rfl⟩ := List.append_eq_nil_iff.mp nothing.symm
    exact ⟨after, later, same⟩

/-! ## What is known of every entry -/

/-- Packets come to a receiver that can send. -/
def Bound (rtc : Rtc) (recoveryTimeoutMs : ℤ) (events : List ReceiverEvent) : Prop :=
  ∀ before atUs message after, events = before ++ .packet atUs message :: after →
    (stateBehind rtc recoveryTimeoutMs before).receiverSend = true

theorem Bound.front (bound : Bound rtc recoveryTimeoutMs (events ++ rest)) : Bound rtc recoveryTimeoutMs events := by
  rintro before atUs message after rfl
  exact bound before atUs message (after ++ rest) (by simp)

/-- The condition at one step. -/
private def BoundStep (_ : List Output) (r : Receiver) (event : ReceiverEvent) : Prop :=
  ∀ atUs message, event = .packet atUs message → r.receiverSend = true

private theorem boundStep_packetEvents (media : List (ℤ × Message)) {past : List Output} {r : Receiver}
    (bound : r.receiverSend = true) : (receiverMachine rtc).Everywhere BoundStep past r (packetEvents media) := by
  induction media generalizing past r with
  | nil => trivial
  | cons arrival media ih =>
    exact ⟨fun _ _ _ => bound, ih ((Receiver.processReceiverPacket_config rtc r _ _).send.trans bound)⟩

/-- In turns of threads the callback is set first. -/
theorem bound_turnEvents (rtc : Rtc) (recoveryTimeoutMs : ℤ) (turns : List ReceiverTurn) :
    Bound rtc recoveryTimeoutMs (turnEvents rtc turns) := by
  have everywhere (past : List Output) (r : Receiver) :
      (receiverMachine rtc).Everywhere BoundStep past r (turnEvents rtc turns) := by
    induction turns generalizing past r with
    | nil => trivial
    | cons turn turns ih =>
      rw [turnEvents, List.flatMap_cons, Transducer.everywhere_append]
      refine ⟨?_, ih _ _⟩
      cases turn with
      | batch arrivals drainUs =>
        refine ⟨by rintro _ _ ⟨⟩, ?_⟩
        rw [Transducer.everywhere_append]
        exact ⟨boundStep_packetEvents _ rfl, by rintro _ _ ⟨⟩, trivial⟩
      | poll | invalidateSync | recordPliSent => exact ⟨by rintro _ _ ⟨⟩, trivial⟩
  intro before atUs message after whole
  exact ((receiverMachine rtc).everywhere_iff_cut.mp (everywhere [] _)) before _ after whole atUs message rfl

/-- Behind a run: buffers are well-formed, a receiver with entries can send, and an entry with the time of a
NACK has been asked for. -/
structure Tracked (rtc : Rtc) (recoveryTimeoutMs : ℤ) (events : List ReceiverEvent) : Prop where
  wellFormed : (stateBehind rtc recoveryTimeoutMs events).WellFormed
  bound : ∀ (id : UInt32) (frame : FrameAssembly),
    (stateBehind rtc recoveryTimeoutMs events).frames[id]? = some frame →
      (stateBehind rtc recoveryTimeoutMs events).receiverSend = true
  asked : ∀ (id : UInt32) (frame : FrameAssembly),
    (stateBehind rtc recoveryTimeoutMs events).frames[id]? = some frame → frame.lastNackUs ≠ 0 →
      AskedFor rtc recoveryTimeoutMs events id frame.firstSeenUs

private theorem step_receiverSend (rtc : Rtc) {r : Receiver} (event : ReceiverEvent) (bound : r.receiverSend = true) :
    (r.step rtc event).1.receiverSend = true := by
  cases event with
  | bindSend => rfl
  | packet atUs message => exact (Receiver.processReceiverPacket_config rtc r atUs message).send.trans bound
  | drain atUs => exact (Receiver.drain_spec r atUs).2.1.send.trans bound
  | poll atUs => exact (Receiver.poll_polled r atUs).config.send.trans bound
  | invalidateSync => exact bound
  | recordPliSent => exact bound

/-- A poll that asks for a frame sends a NACK for it. -/
private theorem askedFor_of_asks {atUs : ℤ} (tracked : Tracked rtc recoveryTimeoutMs events)
    (found : (stateBehind rtc recoveryTimeoutMs events).frames[id]? = some frame)
    (asked : (stateBehind rtc recoveryTimeoutMs events).asks atUs frame = true) :
    AskedFor rtc recoveryTimeoutMs (events ++ [.poll atUs]) id frame.firstSeenUs := by
  obtain ⟨later, nacks⟩ := @Receiver.poll_spec _ atUs id frame (tracked.bound id frame found) found
  have due := asked
  simp only [Receiver.asks, Bool.and_eq_true, Bool.not_eq_true', Bool.or_eq_false_iff,
    decide_eq_false_iff_not] at due
  obtain ⟨nack, sent⟩ := Receiver.sendNack_of_incomplete (tracked.wellFormed.slots id frame found) due.1.1 due.1.2
  have own : nack ∈ (stateBehind rtc recoveryTimeoutMs events).polledNack atUs frame := by
    rw [Receiver.polledNack, if_pos asked]
    exact sent
  refine ⟨events, atUs, [], frame, nack, rfl, ?_, found, own, nacks nack own⟩
  refine keptSince_step found ((congrArg (fun r => r.frames[id]?) (stateBehind_concat _ _)).trans later) ?_
  rw [Receiver.polledEntry, if_pos asked]

private theorem tracked_step {event : ReceiverEvent} (tracked : Tracked rtc recoveryTimeoutMs events)
    (positive : Receiver.PositiveTime event)
    (bound : ∀ atUs message, event = .packet atUs message →
      (stateBehind rtc recoveryTimeoutMs events).receiverSend = true) :
    Tracked rtc recoveryTimeoutMs (events ++ [event]) := by
  constructor
  · rw [stateBehind_concat]
    exact Receiver.wellFormed_step rtc tracked.wellFormed event positive
  · intro id frame found
    rw [stateBehind_concat] at found ⊢
    apply step_receiverSend
    rcases Receiver.entry_origin rtc tracked.wellFormed event found with
      ⟨before, there, -⟩ | ⟨-, -, -, sends, -⟩ | ⟨-, message, opens⟩
    · exact tracked.bound id before there
    · exact sends
    · exact bound _ message opens
  · intro id frame found nacked
    have later := found
    rw [stateBehind_concat] at found
    rcases Receiver.entry_origin rtc tracked.wellFormed event found with
      ⟨before, there, goes⟩ | ⟨atUs, before, rfl, -, there, asked, rfl⟩ | ⟨never, -⟩
    · rw [goes.firstSeenUs]
      rw [goes.lastNackUs] at nacked
      exact (tracked.asked id before there nacked).append (keptSince_step there later goes.firstSeenUs)
    · have sent := askedFor_of_asks tracked there asked
      exact sent
    · exact absurd never nacked

theorem tracked_run (rtc : Rtc) (recoveryTimeoutMs : ℤ) {events : List ReceiverEvent}
    (positive : ∀ event ∈ events, Receiver.PositiveTime event) (bound : Bound rtc recoveryTimeoutMs events) :
    Tracked rtc recoveryTimeoutMs events := by
  induction events using List.reverseRecOn with
  | nil =>
    have empty (id : UInt32) (frame : FrameAssembly) :
        (stateBehind rtc recoveryTimeoutMs []).frames[id]? = some frame → False := by
      intro found
      simp [stateBehind, Receiver.new] at found
    exact ⟨Receiver.wellFormed_new recoveryTimeoutMs, fun id frame found => (empty id frame found).elim,
      fun id frame found => (empty id frame found).elim⟩
  | append_singleton events event ih =>
    rw [List.forall_mem_append, List.forall_mem_singleton] at positive
    refine tracked_step (ih positive.1 bound.front) positive.2 ?_
    rintro atUs message rfl
    exact bound events atUs message [] rfl

/-! ## Asked for and polled in time -/

/-- An assembly has been asked for exactly when a poll came in time. -/
private theorem askedFor_iff (positive : ∀ event ∈ events, Receiver.PositiveTime event)
    (bound : Bound rtc recoveryTimeoutMs events) :
    AskedFor rtc recoveryTimeoutMs events id firstSeenUs ↔
      PolledInTime rtc recoveryTimeoutMs events id firstSeenUs := by
  constructor
  · rintro ⟨before, atUs, rest, frame, nack, rfl, since, found, sent, -⟩
    rw [Receiver.polledNack] at sent
    split_ifs at sent with asked
    · simp only [Receiver.asks, Receiver.nackDue, Bool.and_eq_true, Bool.not_eq_true', Bool.or_eq_false_iff,
        Bool.or_eq_true, decide_eq_false_iff_not, decide_eq_true_eq] at asked
      obtain ⟨⟨opened, incomplete⟩, ⟨window, -⟩, inTime⟩ := asked
      exact ⟨before, atUs, rest, frame, rfl, since, found, opened, incomplete, window, inTime⟩
    · contradiction
  · rintro ⟨before, atUs, rest, frame, rfl, since, found, opened, incomplete, window, inTime⟩
    have tracked : Tracked rtc recoveryTimeoutMs before :=
      tracked_run rtc _ (fun event member => positive event (List.mem_append_left _ member)) bound.front
    obtain ⟨_, there, seen⟩ := since [] _ rfl
    rw [List.append_nil] at there
    obtain rfl := Option.some.inj (found.symm.trans there)
    obtain rfl := seen
    by_cases never : frame.lastNackUs = 0
    · have asked : (stateBehind rtc recoveryTimeoutMs before).asks atUs frame = true := by
        simp [Receiver.asks, Receiver.nackDue, opened, incomplete, never, inTime, window]
      have apart : before ++ .poll atUs :: rest = (before ++ [.poll atUs]) ++ rest := by simp
      rw [apart]
      apply (askedFor_of_asks tracked found asked).append
      intro first second whole
      obtain ⟨later, present, same⟩ := since (.poll atUs :: first) second (by rw [whole]; rfl)
      exact ⟨later, by simpa using present, same⟩
    · exact (tracked.asked id frame found never).append since

/-! ## Polls every twenty milliseconds -/

/-- The time of the last poll of a run. -/
def lastPollUs (startUs : ℤ) (events : List ReceiverEvent) : ℤ := events.foldl pollTime startUs

theorem polledEvery_concat {event : ReceiverEvent} : PolledEvery periodUs startUs (events ++ [event]) ↔
    PolledEvery periodUs startUs events ∧ ∀ atUs ∈ readingOf event,
      lastPollUs startUs events ≤ atUs ∧ atUs ≤ lastPollUs startUs events + periodUs := by
  induction events generalizing startUs with
  | nil => simp [PolledEvery, lastPollUs]
  | cons first events ih => rw [List.cons_append, PolledEvery, PolledEvery, ih, and_assoc]; rfl

theorem polledEvery_append (polled : PolledEvery periodUs startUs (events ++ rest)) :
    PolledEvery periodUs startUs events := by
  induction rest using List.reverseRecOn with
  | nil => rwa [List.append_nil] at polled
  | append_singleton rest event ih =>
    rw [← List.append_assoc] at polled
    exact ih (polledEvery_concat.mp polled).1

theorem lastPollUs_concat (startUs : ℤ) (events : List ReceiverEvent) (event : ReceiverEvent) :
    lastPollUs startUs (events ++ [event]) = pollTime (lastPollUs startUs events) event :=
  List.foldl_append

/-- The clock of a run is positive from its start on. -/
private theorem start_le_lastPollUs (polled : PolledEvery periodUs startUs events) :
    startUs ≤ lastPollUs startUs events := by
  induction events using List.reverseRecOn with
  | nil => exact le_refl startUs
  | append_singleton events event ih =>
    obtain ⟨before, here⟩ := polledEvery_concat.mp polled
    rw [lastPollUs_concat]
    cases event with
    | poll atUs => exact le_trans (ih before) (here atUs rfl).1
    | bindSend | packet | drain | invalidateSync | recordPliSent => exact ih before

private theorem positiveTime_of_polledEvery (started : 0 < startUs) (polled : PolledEvery periodUs startUs events) :
    ∀ event ∈ events, Receiver.PositiveTime event := by
  intro event member
  obtain ⟨before, after, rfl⟩ := List.append_of_mem member
  rw [← List.singleton_append, ← List.append_assoc] at polled
  obtain ⟨earlier, here⟩ := polledEvery_concat.mp (polledEvery_append polled)
  cases event with
  | packet atUs message =>
    exact lt_of_lt_of_le started (le_trans (start_le_lastPollUs earlier) (here atUs rfl).1)
  | bindSend | poll | drain | invalidateSync | recordPliSent => trivial

/-- An incomplete assembly that no NACK has been sent for was younger than 120 ms at the last poll. -/
def YoungAtPoll (rtc : Rtc) (recoveryTimeoutMs startUs : ℤ) (events : List ReceiverEvent) : Prop :=
  ∀ (id : UInt32) (frame : FrameAssembly), (stateBehind rtc recoveryTimeoutMs events).frames[id]? = some frame →
    frame.packetCount ≠ 0 → frame.complete = false → frame.lastNackUs = 0 →
      lastPollUs startUs events < frame.firstSeenUs + nackDelayUs

private theorem timeout_behind (rtc : Rtc) (recoveryTimeoutMs : ℤ) (events : List ReceiverEvent) :
    (stateBehind rtc recoveryTimeoutMs events).recoveryTimeoutUs = max 100 recoveryTimeoutMs * 1000 :=
  Receiver.final_recoveryTimeoutUs rtc _ events

/-- A poll that comes soon enough behind the last one either asks or comes too early. -/
private theorem youngAtPoll_poll {atUs : ℤ} (long : 140 ≤ recoveryTimeoutMs) (positive : 0 < atUs)
    (tracked : Tracked rtc recoveryTimeoutMs events) (young : YoungAtPoll rtc recoveryTimeoutMs startUs events)
    (soon : atUs ≤ lastPollUs startUs events + 20000) :
    YoungAtPoll rtc recoveryTimeoutMs startUs (events ++ [.poll atUs]) := by
  intro id frame found opened incomplete never
  rw [lastPollUs_concat]
  rw [stateBehind_concat] at found
  obtain ⟨before, nackUs, present, -⟩ := (Receiver.poll_polled _ atUs).get found
  have polled := (@Receiver.poll_spec _ atUs id before (tracked.bound id before present) present).1
  obtain rfl := Option.some.inj (found.symm.trans polled)
  rw [Receiver.polledEntry] at *
  split_ifs at * with asked
  · exact absurd never (ne_of_gt positive)
  · have early := young id before present opened incomplete never
    have inTime : atUs - before.firstSeenUs < (stateBehind rtc recoveryTimeoutMs events).recoveryTimeoutUs := by
      rw [timeout_behind]
      rw [nackDelayUs] at early
      omega
    by_contra late
    apply asked
    have old : nackDelayUs ≤ atUs - before.firstSeenUs := by
      rw [pollTime] at late
      omega
    simp [Receiver.asks, Receiver.nackDue, opened, incomplete, never, inTime, old]

private theorem youngAtPoll_run (long : 140 ≤ recoveryTimeoutMs) (started : 0 < startUs)
    (bound : Bound rtc recoveryTimeoutMs events) (polled : PolledEvery 20000 startUs events) :
    YoungAtPoll rtc recoveryTimeoutMs startUs events := by
  induction events using List.reverseRecOn with
  | nil =>
    intro id frame found
    simp [stateBehind, Receiver.new] at found
  | append_singleton events event ih =>
    have boundBefore := bound.front
    obtain ⟨polledBefore, here⟩ := polledEvery_concat.mp polled
    have young := ih boundBefore polledBefore
    have tracked := tracked_run rtc recoveryTimeoutMs (positiveTime_of_polledEvery started polledBefore) boundBefore
    by_cases isPoll : ∃ atUs, event = .poll atUs
    · obtain ⟨atUs, rfl⟩ := isPoll
      obtain ⟨later, soon⟩ := here atUs rfl
      exact youngAtPoll_poll long (lt_of_lt_of_le started (le_trans (start_le_lastPollUs polledBefore) later))
        tracked young soon
    · have same : lastPollUs startUs (events ++ [event]) = lastPollUs startUs events := by
        rw [lastPollUs_concat]
        cases event with
        | poll atUs => exact absurd ⟨atUs, rfl⟩ isPoll
        | bindSend | packet | drain | invalidateSync | recordPliSent => rfl
      intro id frame found opened incomplete never
      rw [same]
      rw [stateBehind_concat] at found
      rcases Receiver.entry_origin rtc tracked.wellFormed event found with
        ⟨before, there, goes⟩ | ⟨atUs, -, polls, -⟩ | ⟨-, message, opens⟩
      · have wasIncomplete : before.complete = false := by
          apply Bool.eq_false_of_not_eq_true
          intro whole
          rw [goes.complete whole] at incomplete
          contradiction
        rw [goes.firstSeenUs]
        exact young id before there (goes.packetCount ▸ opened) wasIncomplete (goes.lastNackUs ▸ never)
      · exact absurd ⟨atUs, polls⟩ isPoll
      · have opened := (here frame.firstSeenUs (by rw [opens]; rfl)).1
        rw [nackDelayUs]
        omega

/-- With polls every 20 ms and a timeout of 140 ms, every frame that is given up has been asked for. -/
private theorem repairAttempted_of_polled (long : 140 ≤ recoveryTimeoutMs) (started : 0 < startUs)
    (bound : Bound rtc recoveryTimeoutMs events) (polled : PolledEvery 20000 startUs events) :
    RepairAttempted rtc recoveryTimeoutMs events := by
  rintro before drainUs after rfl id frame ⟨found, opened, incomplete, overdue, -⟩
  have boundBefore := bound.front
  rw [← List.singleton_append, ← List.append_assoc] at polled
  obtain ⟨polledBefore, here⟩ := polledEvery_concat.mp (polledEvery_append polled)
  have young := youngAtPoll_run long started boundBefore polledBefore id frame found opened incomplete
  have tracked := tracked_run rtc recoveryTimeoutMs (positiveTime_of_polledEvery started polledBefore) boundBefore
  apply tracked.asked id frame found
  intro never
  have early := young never
  have soon := (here drainUs rfl).2
  rw [timeout_behind] at overdue
  rw [nackDelayUs] at early
  omega

/-! ## Shorter timeouts -/

private def stamped (frameId : UInt32) (count : UInt16) (keyframe : Bool) : MessagePtr :=
  some (addFrameMetadata .rfc5761 ⟨1, frameId, 0, count, keyframe⟩ (Rtp.packet (UInt16.ofNat frameId.toNat) false [1]))

/-- A keyframe and the first of two packets of the next frame, then polls every 20 ms: one comes just before
the frame is 120 ms old, the next when it is nearly 140 ms old. -/
def unrepaired : List ReceiverTurn :=
  [.batch [(1000, stamped 1 1 true), (1000, stamped 2 2 false)] 1000] ++
    [1000, 20999, 40999, 60999, 80999, 100999, 120999, 140999].map .poll ++ [.batch [] 141000]

/-- The events ahead of the last drain. -/
private def unrepairedBefore : List ReceiverEvent := (turnEvents .rfc5761 unrepaired).take 13

/-- What a poll sends. -/
private def sentByPoll (r : Receiver) : ReceiverEvent → List Message
  | .poll atUs => (r.poll atUs).2.sent
  | _ => []

/-- With a timeout below 140 ms no poll sends anything, and the last drain gives up the second frame. -/
private theorem unrepaired_short : ∀ short : Fin 40,
    ((receiverMachine .rfc5761).Everywhere (fun _ r event => sentByPoll r event = []) [] (.new (100 + short))
        unrepairedBefore) ∧
      ∃ frame ∈ (stateBehind .rfc5761 (100 + short) unrepairedBefore).frames[(2 : UInt32)]?,
        frame.packetCount ≠ 0 ∧ frame.complete = false ∧
          (stateBehind .rfc5761 (100 + short) unrepairedBefore).recoveryTimeoutUs ≤ 141000 - frame.firstSeenUs ∧
          ((stateBehind .rfc5761 (100 + short) unrepairedBefore).drainCompleteFrames 141000).1.frames[(2 : UInt32)]? =
            none := by
  decide +kernel

private theorem unrepaired_polled : PolledEvery 20000 1000 (turnEvents .rfc5761 unrepaired) := by decide +kernel

/-- A run in which no poll sends anything asks for nothing. -/
private theorem not_askedFor_of_silent
    (silent : (receiverMachine rtc).Everywhere (fun _ r event => sentByPoll r event = []) []
      (.new recoveryTimeoutMs) events) : ¬AskedFor rtc recoveryTimeoutMs events id firstSeenUs := by
  rintro ⟨before, atUs, rest, frame, nack, rfl, -, -, -, sent⟩
  have nothing := (receiverMachine rtc).everywhere_iff_cut.mp silent before _ rest rfl
  have none_sent : ((stateBehind rtc recoveryTimeoutMs before).poll atUs).2.sent = [] := nothing
  rw [none_sent] at sent
  exact List.not_mem_nil sent

/-- Timeouts below the least count as the least. -/
private theorem new_max (recoveryTimeoutMs : ℤ) :
    Receiver.new (max 100 recoveryTimeoutMs) = Receiver.new recoveryTimeoutMs := by
  rw [Receiver.new, Receiver.new, max_eq_right (le_max_left 100 recoveryTimeoutMs)]

/-- With a timeout below 140 ms the second frame of the run is given up unasked for. -/
private theorem not_repairAttempted_of_short (short : recoveryTimeoutMs < 140) :
    ¬RepairAttempted .rfc5761 recoveryTimeoutMs (turnEvents .rfc5761 unrepaired) := by
  obtain ⟨extra, least⟩ : ∃ extra : Fin 40, max 100 recoveryTimeoutMs = 100 + (extra : ℕ) :=
    ⟨⟨(max 100 recoveryTimeoutMs - 100).toNat, by omega⟩, by simp⟩
  obtain ⟨silent, frame, found, opened, incomplete, overdue, dropped⟩ := unrepaired_short extra
  have same : stateBehind .rfc5761 (100 + (extra : ℕ)) unrepairedBefore =
      stateBehind .rfc5761 recoveryTimeoutMs unrepairedBefore := by
    rw [stateBehind, stateBehind, ← least, new_max]
  rw [same] at found overdue dropped
  rw [← least, new_max] at silent
  intro attempted
  have givenUp : GivenUp (stateBehind .rfc5761 recoveryTimeoutMs unrepairedBefore) 141000 2 frame :=
    ⟨found, opened, incomplete, overdue, dropped⟩
  exact not_askedFor_of_silent silent (attempted unrepairedBefore 141000 [] rfl 2 frame givenUp)

/-- With polls at least every 20 ms, every frame that is given up has been asked for exactly with timeouts of
140 ms or more. In any run, whatever the polls and the timeout, exactly those have been asked for that a poll
found in time. -/
theorem repairAttempted_iff (recoveryTimeoutMs : ℤ) :
    ((∀ rtc startUs turns, 0 < startUs → PolledEvery 20000 startUs (turnEvents rtc turns) →
        RepairAttempted rtc recoveryTimeoutMs (turnEvents rtc turns)) ↔ 140 ≤ recoveryTimeoutMs) ∧
      ∀ rtc turns, (∀ event ∈ turnEvents rtc turns, Receiver.PositiveTime event) →
        (RepairAttempted rtc recoveryTimeoutMs (turnEvents rtc turns) ↔
          ForGivenUp (PolledInTime rtc recoveryTimeoutMs) rtc recoveryTimeoutMs (turnEvents rtc turns)) := by
  refine ⟨⟨fun all => ?_, fun long rtc startUs turns started polled => ?_⟩, fun rtc turns positive => ?_⟩
  · by_contra short
    exact not_repairAttempted_of_short (not_le.mp short) (all .rfc5761 1000 unrepaired (by decide) unrepaired_polled)
  · exact repairAttempted_of_polled long started (bound_turnEvents rtc recoveryTimeoutMs turns) polled
  · have iff_before {before after : List ReceiverEvent} {drainUs firstSeenUs : ℤ} {id : UInt32}
        (whole : turnEvents rtc turns = before ++ .drain drainUs :: after) :
        AskedFor rtc recoveryTimeoutMs before id firstSeenUs ↔
          PolledInTime rtc recoveryTimeoutMs before id firstSeenUs := by
      have bound := bound_turnEvents rtc recoveryTimeoutMs turns
      rw [whole] at bound
      exact askedFor_iff (fun event member => positive event (whole ▸ List.mem_append_left _ member)) bound.front
    constructor
    · intro attempted before drainUs after whole id frame givenUp
      exact (iff_before whole).mp (attempted before drainUs after whole id frame givenUp)
    · intro inTime before drainUs after whole id frame givenUp
      exact (iff_before whole).mpr (inTime before drainUs after whole id frame givenUp)

/-- With the least timeout that the constructor admits, the frame is given up 140 ms after its packet came, and
eight polls have asked for nothing. -/
theorem unrepaired_not_attempted :
    PolledEvery 20000 1000 (turnEvents .rfc5761 unrepaired) ∧
      ¬RepairAttempted .rfc5761 100 (turnEvents .rfc5761 unrepaired) :=
  ⟨unrepaired_polled, not_repairAttempted_of_short (by decide)⟩

end WeakNetVideo
