import WeakNetVideo.Proofs.Assembly

/-! # The order of epochs

The receiver follows any packet into the packet's epoch. Its epochs therefore go one way, and late
packets do no harm, exactly in the runs in which no packet of an epoch is processed after one of a
later epoch.
-/

namespace WeakNetVideo

variable {rtc : Rtc} {r : Receiver}

/-- The place of an epoch in the order in which a sender passes through its epochs. -/
def epochRank (rtc : Rtc) (senderRun : List SenderCall) (epoch : UInt16) : ℕ :=
  ((sentFrames rtc {} senderRun).map SentFrame.epoch).idxOf epoch

/-- The epoch a packet is processed under, if it is processed at all. -/
def packetEpoch (rtc : Rtc) : ReceiverEvent → Option UInt16
  | .packet _ message => (Receiver.validMetadata rtc message).map FrameMetadata.epoch
  | _ => none

/-- Epochs go one way: the receiver never returns to an earlier one, and a packet of an earlier one
leaves it as it is. -/
structure EpochsOneWay (rtc : Rtc) (rank : UInt16 → ℕ) (r : Receiver) (events : List ReceiverEvent) :
    Prop where
  neverBack : ∀ (first second rest : List ReceiverEvent), events = first ++ second ++ rest →
    ∀ before after, ((receiverMachine rtc).final r first).receiverEpoch = some before →
      ((receiverMachine rtc).final r (first ++ second)).receiverEpoch = some after →
      rank before ≤ rank after
  lateIgnored : ∀ (first : List ReceiverEvent) (event : ReceiverEvent) (rest : List ReceiverEvent),
    events = first ++ event :: rest →
    ∀ epoch late, ((receiverMachine rtc).final r first).receiverEpoch = some epoch →
      packetEpoch rtc event = some late → rank late < rank epoch →
      Receiver.SameState ((receiverMachine rtc).final r first)
        (((receiverMachine rtc).final r first).step rtc event).1

/-- The packets are processed in the order of their epochs. -/
def InEpochOrder (rtc : Rtc) (rank : UInt16 → ℕ) (events : List ReceiverEvent) : Prop :=
  (events.filterMap (packetEpoch rtc)).Pairwise fun earlier later => rank earlier ≤ rank later

/-- A packet sets the epoch to its own; nothing else sets it. -/
theorem receiverEpoch_step (rtc : Rtc) (r : Receiver) (event : ReceiverEvent) :
    (r.step rtc event).1.receiverEpoch = (packetEpoch rtc event).or r.receiverEpoch := by
  cases event with
  | packet atUs message =>
    simp only [Receiver.step, packetEpoch]
    cases valid : Receiver.validMetadata rtc message with
    | none => rw [Receiver.processReceiverPacket_of_invalid valid]; rfl
    | some metadata => rw [Receiver.processReceiverPacket_receiverEpoch valid]; rfl
  | drain atUs => exact (Receiver.drain_spec r atUs).1
  | poll atUs => exact (Receiver.poll_polled r atUs).epoch
  | bindSend => rfl
  | invalidateSync => rfl
  | recordPliSent => rfl

/-- The epoch after a run is that of the last packet processed. -/
theorem receiverEpoch_final (rtc : Rtc) (r : Receiver) (events : List ReceiverEvent) :
    ((receiverMachine rtc).final r events).receiverEpoch =
      ((events.filterMap (packetEpoch rtc)).getLast?).or r.receiverEpoch := by
  induction events generalizing r with
  | nil => rfl
  | cons event events ih =>
    rw [Transducer.final_cons, ih, receiverMachine_step, receiverEpoch_step, List.filterMap_cons]
    cases packetEpoch rtc event with
    | none => rfl
    | some epoch =>
      rw [List.getLast?_cons]
      cases (events.filterMap (packetEpoch rtc)).getLast? <;> rfl

/-- In a sequence in order, the last element of a prefix is no later than that of a longer one. -/
private theorem rank_le_of_pairwise {rank : UInt16 → ℕ} {first second : List UInt16}
    (ordered : (first ++ second).Pairwise fun earlier later => rank earlier ≤ rank later)
    {before after : UInt16} (last : first.getLast? = some before)
    (last' : (first ++ second).getLast? = some after) : rank before ≤ rank after := by
  cases second with
  | nil =>
    rw [List.append_nil, last, Option.some.injEq] at last'
    rw [last']
  | cons epoch second =>
    rw [List.getLast?_append, List.getLast?_cons, Option.some_or, Option.some.injEq] at last'
    apply (List.pairwise_append.mp ordered).2.2 before (List.mem_of_getLast? last) after
    rw [← last']
    cases more : second.getLast? with
    | none => exact List.mem_cons_self ..
    | some other => exact List.mem_cons_of_mem _ (List.mem_of_getLast? more)

private theorem oneWay_of_inEpochOrder {rank : UInt16 → ℕ} {events : List ReceiverEvent}
    (fresh : r.receiverEpoch = none) (ordered : InEpochOrder rtc rank events) :
    EpochsOneWay rtc rank r events := by
  constructor
  · rintro first second rest rfl before after start stop
    rw [receiverEpoch_final, fresh, Option.or_none] at start stop
    rw [InEpochOrder, List.filterMap_append] at ordered
    have inner := (List.pairwise_append.mp ordered).1
    rw [List.filterMap_append] at inner stop
    exact rank_le_of_pairwise inner start stop
  · rintro first event rest rfl epoch late start packet earlier
    rw [receiverEpoch_final, fresh, Option.or_none] at start
    rw [InEpochOrder, List.filterMap_append, List.filterMap_cons, packet] at ordered
    have order := (List.pairwise_append.mp ordered).2.2 epoch (List.mem_of_getLast? start) late
      (List.mem_cons_self ..)
    omega

private theorem inEpochOrder_of_oneWay {rank : UInt16 → ℕ} {events : List ReceiverEvent}
    (oneWay : EpochsOneWay rtc rank r events) : InEpochOrder rtc rank events := by
  induction events using List.reverseRecOn with
  | nil => exact .nil
  | append_singleton events event ih =>
    have prior : EpochsOneWay rtc rank r events := by
      constructor
      · rintro first second rest rfl
        exact oneWay.neverBack first second (rest ++ [event]) (by simp)
      · rintro first other rest rfl
        exact oneWay.lateIgnored first other (rest ++ [event]) (by simp)
    rw [InEpochOrder, List.filterMap_append, List.pairwise_append]
    refine ⟨ih prior, List.pairwise_filterMap.mpr (List.pairwise_singleton _ event),
      fun before member after last => ?_⟩
    obtain ⟨packet, inside, epoch⟩ := List.mem_filterMap.mp member
    obtain ⟨first, second, rfl⟩ := List.append_of_mem inside
    have own : packetEpoch rtc event = some after := by simpa using last
    -- The receiver takes on the epoch of either packet when it is processed.
    apply oneWay.neverBack (first ++ [packet]) (second ++ [event]) [] (by simp) before after
    · rw [receiverEpoch_final, List.filterMap_append, List.getLast?_append]
      simp [epoch]
    · rw [receiverEpoch_final, List.filterMap_append, List.getLast?_append, List.filterMap_append,
        List.getLast?_append]
      simp [own]

/-- Over every run of calls, the epochs go one way exactly when the packets are processed in the
order in which the sender went through their epochs. -/
theorem epochsOneWay_iff (rtc : Rtc) (senderRun : List SenderCall) (recoveryTimeoutMs : ℤ)
    (calls : List ReceiverCall) :
    EpochsOneWay rtc (epochRank rtc senderRun) (.new recoveryTimeoutMs) (runEvents rtc calls) ↔
      InEpochOrder rtc (epochRank rtc senderRun) (runEvents rtc calls) :=
  ⟨inEpochOrder_of_oneWay, oneWay_of_inEpochOrder rfl⟩

/-- One keyframe in each of two epochs. -/
def twoEpochs : List SenderCall :=
  [.setOutgoingFrame 1 true, .outgoing [some (Rtp.packet 1 true [1])],
    .setOutgoingFrame 2 true, .outgoing [some (Rtp.packet 2 true [2])]]

/-- Both frames arrive in turn, and then the first one once more. -/
def lateEpoch : List ReceiverCall :=
  let sent := sentFrames Rtc.rfc5761 {} twoEpochs
  [deliverTogether 1000 (sent.take 1), deliverTogether 2000 (sent.drop 1),
    deliverTogether 3000 (sent.take 1)]

/-- A second copy of the first frame takes the receiver back from epoch 2 to epoch 1. -/
theorem lateEpoch_goes_back : Delivers Rtc.rfc5761 (sentFrames Rtc.rfc5761 {} twoEpochs) lateEpoch ∧
    (sentFrames Rtc.rfc5761 {} twoEpochs).map SentFrame.epoch = [1, 2] ∧
    ¬EpochsOneWay Rtc.rfc5761 (epochRank Rtc.rfc5761 twoEpochs) (.new 1000)
      (runEvents Rtc.rfc5761 lateEpoch) := by
  refine ⟨?_, by decide, fun oneWay => ?_⟩
  · apply delivers_together fun _ => List.mem_of_mem_take
    apply delivers_together fun _ => List.mem_of_mem_drop
    exact delivers_together (fun _ => List.mem_of_mem_take) (delivers_nil _ _)
  · have back := oneWay.neverBack (runEvents Rtc.rfc5761 (lateEpoch.take 2))
      (runEvents Rtc.rfc5761 (lateEpoch.drop 2)) [] rfl 2 1 (by decide +kernel) (by decide +kernel)
    exact absurd back (by decide +kernel)

end WeakNetVideo
