import WeakNetVideo.Library.Spaced
import WeakNetVideo.Soundness.NackRepair

/-! # The traffic that a repair costs

The NACKs for one assembly are 50 ms apart and end with its timeout, so their number is bounded by the timeout,
however often the handler is polled.
-/

namespace WeakNetVideo

variable {rtc : Rtc} {recoveryTimeoutMs : ℤ} {events before rest : List ReceiverEvent} {id : UInt32}
  {frame : FrameAssembly} {r : Receiver}

/-! ## Times of NACKs -/

/-- The time at which an event sends a NACK for the frame of an id. -/
def nackTime (id : UInt32) (r : Receiver) : ReceiverEvent → Option ℤ
  | .poll atUs =>
    if r.receiverSend && (r.frames[id]?.bind (r.polledNack atUs)).isSome then some atUs else none
  | _ => none

/-- The times at which a run sends NACKs for the frame of an id. -/
def nackTimes (rtc : Rtc) (id : UInt32) (r : Receiver) (events : List ReceiverEvent) : List ℤ :=
  (receiverMachine rtc).marks (nackTime id) r events

/-- Every such time is that of a message that the poll sends. -/
theorem nack_of_nackTime {event : ReceiverEvent} {atUs : ℤ} (sends : nackTime id r event = some atUs) :
    event = .poll atUs ∧ ∃ frame nack, r.frames[id]? = some frame ∧ Receiver.sendNack frame = some nack ∧
      nack ∈ (r.step rtc event).2.sent := by
  cases event with
  | poll time =>
    rw [nackTime] at sends
    split_ifs at sends with asks
    obtain rfl := Option.some.inj sends
    rw [Bool.and_eq_true] at asks
    obtain ⟨nack, asked⟩ := Option.isSome_iff_exists.mp asks.2
    obtain ⟨frame, found, own⟩ := Option.bind_eq_some_iff.mp asked
    refine ⟨rfl, frame, nack, found, ?_, (@Receiver.poll_spec r time id frame asks.1 found).2 nack own⟩
    rw [Receiver.polledNack] at own
    split_ifs at own
    exact own
  | bindSend | packet | drain | invalidateSync | recordPliSent => contradiction

/-- Every message that a poll sends is the NACK of an id at whose times the poll is. -/
theorem nackTime_of_sent {atUs : ℤ} {nack : Message} (sent : nack ∈ (r.step rtc (.poll atUs)).2.sent) :
    ∃ id frame, r.frames[id]? = some frame ∧ Receiver.sendNack frame = some nack ∧
      nackTime id r (.poll atUs) = some atUs := by
  obtain ⟨bound, id, frame, found, asked⟩ := (Receiver.mem_poll_sent r atUs nack).mp sent
  refine ⟨id, frame, found, ?_, ?_⟩
  · rw [Receiver.polledNack] at asked
    split_ifs at asked
    exact asked
  · rw [nackTime, found, Option.bind_some, asked, bound]
    rfl

/-! ## The time at which an assembly was opened -/

/-- An assembly was opened by a packet at its time. -/
private theorem opened_by_packet (rtc : Rtc) (recoveryTimeoutMs : ℤ)
    (positive : ∀ event ∈ events, Receiver.PositiveTime event)
    (found : (stateBehind rtc recoveryTimeoutMs events).frames[id]? = some frame) :
    ∃ message, .packet frame.firstSeenUs message ∈ events := by
  induction events using List.reverseRecOn generalizing id frame with
  | nil => simp [stateBehind, Receiver.new] at found
  | append_singleton events event ih =>
    rw [List.forall_mem_append, List.forall_mem_singleton] at positive
    have wellFormed : (stateBehind rtc recoveryTimeoutMs events).WellFormed :=
      (receiverMachine rtc).preserves (I := Receiver.WellFormed)
        (fun _ event admitted holds => Receiver.wellFormed_step rtc holds event admitted)
        (Receiver.wellFormed_new recoveryTimeoutMs) positive.1
    rw [stateBehind_concat] at found
    rcases Receiver.entry_origin rtc wellFormed event found with
      ⟨old, there, goes⟩ | ⟨_, old, _, _, there, _, rfl⟩ | ⟨_, message, opens⟩
    · obtain ⟨message, member⟩ := ih positive.1 there
      exact ⟨message, goes.firstSeenUs ▸ List.mem_append_left _ member⟩
    · obtain ⟨message, member⟩ := ih positive.1 there
      exact ⟨message, List.mem_append_left _ member⟩
    · exact ⟨message, List.mem_append_right _ (List.mem_singleton.mpr opens.symm)⟩

/-! ## Spacing -/

/-- NACKs so far, and the assembly with the time of the last of them. -/
private structure Asking (timeoutUs : ℤ) (frame : FrameAssembly) (times : List ℤ) (now : FrameAssembly) : Prop where
  firstSeenUs : now.firstSeenUs = frame.firstSeenUs
  last : ∀ atUs ∈ times.getLast?, now.lastNackUs = atUs
  spaced : Spaced nackRetryUs times
  inside : ∀ atUs ∈ times, frame.firstSeenUs ≤ atUs ∧ atUs < frame.firstSeenUs + timeoutUs

/-- A poll that asks again is late enough. -/
private theorem asking_poll {atUs timeoutUs : ℤ} {times : List ℤ} {now : FrameAssembly}
    (timeout : r.recoveryTimeoutUs = timeoutUs) (asking : Asking timeoutUs frame times now)
    (positive : 0 < frame.firstSeenUs) (opened : frame.firstSeenUs ≤ atUs) (asks : r.asks atUs now = true) :
    Asking timeoutUs frame (times ++ [atUs]) { now with lastNackUs := atUs } := by
  simp only [Receiver.asks, Receiver.nackDue, Bool.and_eq_true, Bool.or_eq_true, decide_eq_true_eq] at asks
  obtain ⟨_, ⟨_, retry⟩, inTime⟩ := asks
  have seen := asking.firstSeenUs
  refine ⟨seen, fun time last => ?_, asking.spaced.concat fun last member => ?_, fun time member => ?_⟩
  · simpa using last
  · have recent := asking.last last member
    have above := (asking.inside last (List.mem_of_getLast? member)).1
    omega
  · rcases List.mem_append.mp member with earlier | here
    · exact asking.inside time earlier
    · obtain rfl := List.mem_singleton.mp here
      omega

/-- A poll at which the assembly stays asks for its packets, or leaves it as it is. -/
private theorem asking_polled {atUs timeoutUs : ℤ} {times : List ℤ} {now after : FrameAssembly}
    (wellFormed : r.WellFormed) (timeout : r.recoveryTimeoutUs = timeoutUs)
    (asking : Asking timeoutUs frame times now) (positive : 0 < frame.firstSeenUs)
    (opened : frame.firstSeenUs ≤ atUs) (there : r.frames[id]? = some now)
    (present : (r.poll atUs).1.frames[id]? = some after) :
    Asking timeoutUs frame (times ++ (nackTime id r (.poll atUs)).toList) after := by
  rw [nackTime, there, Option.bind_some]
  cases bound : r.receiverSend with
  | false =>
    rw [Receiver.poll, if_neg (by simp [bound]), there] at present
    obtain rfl := Option.some.inj present
    simpa using asking
  | true =>
    rw [(@Receiver.poll_spec r atUs id now bound there).1] at present
    obtain rfl := Option.some.inj present
    rw [Bool.true_and, Receiver.polledNack, Receiver.polledEntry]
    by_cases asks : r.asks atUs now = true
    · rw [if_pos asks, if_pos asks]
      have open_ : now.packetCount ≠ 0 ∧ now.complete = false := by
        simp only [Receiver.asks, Bool.and_eq_true, Bool.not_eq_true', Bool.or_eq_false_iff,
          decide_eq_false_iff_not] at asks
        exact asks.1
      obtain ⟨nack, sends⟩ := Receiver.sendNack_of_incomplete (wellFormed.slots id now there) open_.1 open_.2
      rw [sends, Option.isSome_some, if_pos rfl]
      exact asking_poll timeout asking positive opened asks
    · rw [if_neg asks, if_neg asks]
      simpa using asking

/-- An event at which the assembly stays keeps the distance. -/
private theorem asking_step {event : ReceiverEvent} {timeoutUs : ℤ} {times : List ℤ} {now after : FrameAssembly}
    (wellFormed : r.WellFormed) (timeout : r.recoveryTimeoutUs = timeoutUs)
    (asking : Asking timeoutUs frame times now) (positive : 0 < frame.firstSeenUs)
    (opened : ∀ atUs ∈ readingOf event, frame.firstSeenUs ≤ atUs)
    (later : ∀ atUs message, event = .packet atUs message → frame.firstSeenUs < atUs)
    (there : r.frames[id]? = some now) (present : (r.step rtc event).1.frames[id]? = some after)
    (seen : after.firstSeenUs = frame.firstSeenUs) :
    Asking timeoutUs frame (times ++ (nackTime id r event).toList) after := by
  by_cases polls : ∃ atUs, event = .poll atUs
  · obtain ⟨atUs, rfl⟩ := polls
    exact asking_polled wellFormed timeout asking positive (opened atUs rfl) there present
  · have silent : nackTime id r event = none := by
      cases event with
      | poll atUs => exact absurd ⟨atUs, rfl⟩ polls
      | bindSend | packet | drain | invalidateSync | recordPliSent => rfl
    rw [silent, Option.toList_none, List.append_nil]
    rcases Receiver.entry_origin rtc wellFormed event present with
      ⟨old, found, goes⟩ | ⟨atUs, _, rfl, _⟩ | ⟨_, message, opens⟩
    · obtain rfl := Option.some.inj (there.symm.trans found)
      exact ⟨seen, fun atUs last => goes.lastNackUs.trans (asking.last atUs last), asking.spaced, asking.inside⟩
    · exact absurd ⟨atUs, rfl⟩ polls
    · exact absurd seen (Int.ne_of_gt (later _ message opens))

/-- While the assembly stays, its NACKs keep their distance. -/
private theorem asking_run (positive : ∀ event ∈ before ++ rest, Receiver.PositiveTime event)
    (forward : ((before ++ rest).filterMap readingOf).Pairwise (· ≤ ·))
    (found : (stateBehind rtc recoveryTimeoutMs before).frames[id]? = some frame)
    (kept : KeptSince rtc recoveryTimeoutMs before rest id frame.firstSeenUs)
    (later : ∀ atUs message, .packet atUs message ∈ rest → frame.firstSeenUs < atUs) :
    ∃ now, (stateBehind rtc recoveryTimeoutMs (before ++ rest)).frames[id]? = some now ∧
      Asking (max 100 recoveryTimeoutMs * 1000) frame
        (nackTimes rtc id (stateBehind rtc recoveryTimeoutMs before) rest) now := by
  induction rest using List.reverseRecOn with
  | nil =>
    rw [List.append_nil]
    exact ⟨frame, found, rfl, fun _ last => absurd last (by simp [nackTimes, Transducer.marks]), Spaced.nil _,
      fun _ member => absurd member List.not_mem_nil⟩
  | append_singleton rest event ih =>
    rw [← List.append_assoc] at positive forward ⊢
    rw [List.forall_mem_append, List.forall_mem_singleton] at positive
    rw [List.filterMap_append, List.pairwise_append] at forward
    obtain ⟨now, there, asking⟩ := ih positive.1 forward.1
      (fun first second split => kept first (second ++ [event]) (by rw [split, List.append_assoc]))
      fun atUs message inside => later atUs message (List.mem_append_left _ inside)
    obtain ⟨after, present, seen⟩ := kept (rest ++ [event]) [] (List.append_nil _).symm
    rw [← List.append_assoc] at present
    refine ⟨after, present, ?_⟩
    rw [stateBehind_concat] at present
    rw [nackTimes, Transducer.marks_concat, ← stateBehind_append]
    have wellFormed : (stateBehind rtc recoveryTimeoutMs (before ++ rest)).WellFormed :=
      (receiverMachine rtc).preserves (I := Receiver.WellFormed)
        (fun _ event admitted holds => Receiver.wellFormed_step rtc holds event admitted)
        (Receiver.wellFormed_new recoveryTimeoutMs) positive.1
    obtain ⟨message, first⟩ := opened_by_packet rtc recoveryTimeoutMs
      (fun event member => positive.1 event (List.mem_append_left _ member)) found
    have reading : frame.firstSeenUs ∈ (before ++ rest).filterMap readingOf :=
      List.mem_filterMap.mpr ⟨_, List.mem_append_left _ first, rfl⟩
    apply asking_step wellFormed (Receiver.final_recoveryTimeoutUs rtc _ _) asking
      (positive.1 _ (List.mem_append_left _ first)) _ _ there present seen
    · intro atUs here
      exact forward.2.2 _ reading atUs (List.mem_filterMap.mpr ⟨event, List.mem_singleton.mpr rfl, here⟩)
    · rintro atUs message rfl
      exact later atUs message (List.mem_append_right _ (List.mem_singleton.mpr rfl))

/-! ## The bound -/

/-- While an assembly stays in the buffer, the NACKs for it are 50 ms apart and inside its timeout, so there are
at most as many as 50 ms fit into the timeout, whatever the polls. -/
theorem nacks_bounded (positive : ∀ event ∈ before ++ rest, Receiver.PositiveTime event)
    (forward : ((before ++ rest).filterMap readingOf).Pairwise (· ≤ ·))
    (found : (stateBehind rtc recoveryTimeoutMs before).frames[id]? = some frame)
    (kept : KeptSince rtc recoveryTimeoutMs before rest id frame.firstSeenUs)
    (later : ∀ atUs message, .packet atUs message ∈ rest → frame.firstSeenUs < atUs) :
    Spaced nackRetryUs (nackTimes rtc id (stateBehind rtc recoveryTimeoutMs before) rest) ∧
      (∀ atUs ∈ nackTimes rtc id (stateBehind rtc recoveryTimeoutMs before) rest,
        frame.firstSeenUs ≤ atUs ∧ atUs < frame.firstSeenUs + max 100 recoveryTimeoutMs * 1000) ∧
      ∀ n : ℕ, max 100 recoveryTimeoutMs ≤ 50 * n →
        (nackTimes rtc id (stateBehind rtc recoveryTimeoutMs before) rest).length ≤ n := by
  obtain ⟨_, _, asking⟩ := asking_run positive forward found kept later
  refine ⟨asking.spaced, asking.inside, fun n fits => ?_⟩
  apply asking.spaced.length_le (by decide) _ asking.inside
  rw [nsmul_eq_mul, nackRetryUs]
  omega

/-- Three polls, of which the second is too early. -/
def polledAgain : List ReceiverEvent := [.poll 20000, .poll 60000, .poll 80000]

/-- Two NACKs of at most twenty. -/
theorem nacks_bounded_early : nackTimes Rtc.rfc5761 2 (stateBehind Rtc.rfc5761 1000 secondLost) polledAgain =
    [20000, 80000] ∧ (nackTimes Rtc.rfc5761 2 (stateBehind Rtc.rfc5761 1000 secondLost) polledAgain).length ≤ 20 := by
  have kept : KeptSince Rtc.rfc5761 1000 secondLost polledAgain 2 2000 := keptSince_of_cuts (by decide +kernel)
  obtain ⟨frame, found, seen⟩ := kept [] _ rfl
  rw [List.append_nil] at found
  have readings : ∀ event ∈ secondLost ++ polledAgain, ∀ atUs ∈ readingOf event, 0 < atUs := by decide +kernel
  have positive : ∀ event ∈ secondLost ++ polledAgain, Receiver.PositiveTime event := by
    intro event inside
    cases event with
    | packet atUs message => exact readings _ inside atUs rfl
    | bindSend | drain | poll | invalidateSync | recordPliSent => trivial
  have later : ∀ atUs message, .packet atUs message ∈ polledAgain → frame.firstSeenUs < atUs := by
    simp [polledAgain]
  obtain ⟨_, _, fewer⟩ := nacks_bounded positive (by decide +kernel) found (seen ▸ kept) later
  exact ⟨by decide +kernel, fewer 20 (by decide)⟩

end WeakNetVideo
