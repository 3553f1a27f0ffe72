import WeakNetVideo.Proofs.TwccCoverage
import WeakNetVideo.Soundness.TwccCodec
import WeakNetVideo.Soundness.TwccCoverage

/-! # Feedback and packets that have been received

A feedback covers the numbers from the first packet of its interval to the newest, and knows the packets
of its interval only. It calls a received packet lost exactly when an interval is headed by a late packet,
one of an earlier interval came ahead of it, and a newer one follows.
-/

namespace WeakNetVideo

variable {rtc : Rtc} {r : TwccReceiver} {start : UInt16} {queue received : List UInt16}
  {feedback : TwccFeedback} {atUs : ℤ}

/-- The transport sequence numbers that come in with one call. -/
def TwccCall.stamps (rtc : Rtc) (call : TwccCall) : List UInt16 :=
  call.arrivals.filterMap fun arrival => readTwccSequence rtc arrival.2

/-- The handler when it considers a feedback: all messages of the call are observed. -/
def TwccReceiver.observed (rtc : Rtc) (r : TwccReceiver) (call : TwccCall) : TwccReceiver :=
  call.arrivals.foldl (fun r arrival => r.observeTwccExtension rtc arrival.1 arrival.2) r

/-- A feedback is due. -/
def TwccReceiver.Due (r : TwccReceiver) (atUs : ℤ) : Prop :=
  r.pending ≠ [] ∧ twccFeedbackIntervalUs ≤ atUs - r.lastFeedbackUs

/-- How far a number is behind the start of the span of a run. -/
def behindStart (start sequence : UInt16) : ℕ := (sequence - start).toNat

/-- All numbers lie within a span of 4096. -/
def WithinSpan (start : UInt16) (numbers : List UInt16) : Prop :=
  ∀ sequence ∈ numbers, behindStart start sequence < 4096

instance (start : UInt16) (numbers : List UInt16) : Decidable (WithinSpan start numbers) :=
  List.decidableBAll _ numbers

/-- No received packet lies between the first packet of a queue and another one of it, but those in the
queue. -/
def NoneForgottenBetween (start : UInt16) (received queue : List UInt16) : Prop :=
  ∀ first ∈ queue.head?, ∀ newer ∈ queue, ∀ sequence ∈ received,
    behindStart start first < behindStart start sequence →
      behindStart start sequence < behindStart start newer → sequence ∈ queue

instance (start : UInt16) (received queue : List UInt16) :
    Decidable (NoneForgottenBetween start received queue) :=
  @Option.decidableForallMem _ _ (fun _ =>
    @List.decidableBAll _ _ (fun _ => @List.decidableBAll _ _ (fun _ => inferInstance) received) queue) queue.head?

/-- No feedback of a run marks a packet as not received that was received before it was sent. -/
def NeverCallsReceivedLost (rtc : Rtc) (calls : List TwccCall) : Prop :=
  ∀ before call after, calls = before ++ call :: after →
    ∀ feedback ∈ ((twccMachine rtc).step ((twccMachine rtc).final {} before) call).2,
      ∀ sequence ∈ feedback.markedLost, sequence ∉ (before ++ [call]).flatMap (TwccCall.stamps rtc)

/-! ## Sixteen bits within a span -/

private theorem behindStart_injective {left right : UInt16}
    (same : behindStart start left = behindStart start right) : left = right := by
  have difference : left - start = right - start := UInt16.toNat_inj.mp same
  rw [← UInt16.sub_add_cancel left start, difference, UInt16.sub_add_cancel]

private theorem toNat_sub_of_span {sequence base : UInt16} (inside : behindStart start sequence < 4096)
    (inside' : behindStart start base < 4096) : (sequence - base).toNat =
      if behindStart start base ≤ behindStart start sequence then
        behindStart start sequence - behindStart start base
      else 65536 + behindStart start sequence - behindStart start base := by
  have sequenceBound := sequence.toNat_lt
  have baseBound := base.toNat_lt
  have startBound := start.toNat_lt
  simp only [behindStart, UInt16.toNat_sub] at *
  split_ifs <;> omega

private theorem behindStart_add {base : UInt16} {offset : ℕ} (inside : behindStart start base + offset < 65536) :
    behindStart start (base + UInt16.ofNat offset) = behindStart start base + offset := by
  have baseBound := base.toNat_lt
  have startBound := start.toNat_lt
  simp only [behindStart, UInt16.toNat_sub, UInt16.toNat_add, UInt16.toNat_ofNat'] at *
  omega

/-- Within a span the signed difference finds the newer number. -/
private theorem newerSequence_of_span {latest sequence : UInt16} (inside : behindStart start latest < 4096)
    (inside' : behindStart start sequence < 4096) : newerSequence latest sequence =
      if behindStart start latest < behindStart start sequence then sequence else latest := by
  rw [newerSequence_eq, toNat_sub_of_span inside' inside]
  apply if_congr _ rfl rfl
  split_ifs <;> omega

/-- The newest number of a queue is one of it, and none is behind it. -/
private theorem newest_of_span {base : UInt16} (inside : WithinSpan start (base :: queue)) :
    queue.foldl newerSequence base ∈ base :: queue ∧
      ∀ sequence ∈ base :: queue,
        behindStart start sequence ≤ behindStart start (queue.foldl newerSequence base) := by
  induction queue generalizing base with
  | nil => simp
  | cons next queue ih =>
    rw [WithinSpan, List.forall_mem_cons, List.forall_mem_cons] at inside
    obtain ⟨baseInside, nextInside, others⟩ := inside
    rw [List.foldl_cons, newerSequence_of_span baseInside nextInside]
    split_ifs with later
    · obtain ⟨member, above⟩ := ih (List.forall_mem_cons.mpr ⟨nextInside, others⟩)
      refine ⟨List.mem_cons_of_mem _ member, ?_⟩
      rintro sequence one
      rcases List.mem_cons.mp one with rfl | one
      · exact Nat.le_trans (Nat.le_of_lt later) (above next List.mem_cons_self)
      · exact above sequence one
    · obtain ⟨member, above⟩ := ih (List.forall_mem_cons.mpr ⟨baseInside, others⟩)
      rw [List.forall_mem_cons] at above
      refine ⟨?_, ?_⟩
      · rcases List.mem_cons.mp member with same | member
        · exact List.mem_cons.mpr (.inl same)
        · exact List.mem_cons_of_mem _ (List.mem_cons_of_mem _ member)
      · rw [List.forall_mem_cons, List.forall_mem_cons]
        exact ⟨above.1, Nat.le_trans (Nat.le_of_not_lt later) above.1, above.2⟩

/-! ## What a feedback marks -/

/-- The numbers marked are those between the ends of the feedback that do not wait. -/
theorem mem_markedLost (made : MadeFrom feedback r) (sequence : UInt16) :
    sequence ∈ feedback.markedLost ↔ sequence ∉ r.pending.map TwccSample.sequence ∧
      ∃ offset < feedback.packetCount.toNat, feedback.baseSequence + UInt16.ofNat offset = sequence := by
  rw [TwccFeedback.markedLost, made.chunks, chunkStatuses_runs, TwccFeedback.sequences, receivedStatuses,
    List.zip_map']
  simp only [List.mem_map, List.mem_filter, List.mem_range]
  constructor
  · rintro ⟨_, ⟨⟨offset, inside, rfl⟩, missing⟩, rfl⟩
    exact ⟨by simpa using missing, offset, inside, rfl⟩
  · rintro ⟨missing, offset, inside, rfl⟩
    exact ⟨_, ⟨⟨offset, inside, rfl⟩, by simpa using missing⟩, rfl⟩

/-- A queue within a span counts from its first number to the newest, which always fits a feedback. -/
private theorem packetCount_of_span {front : TwccSample} {rest : List TwccSample}
    (inside : WithinSpan start ((front :: rest).map TwccSample.sequence)) :
    ∃ newest ∈ (front :: rest).map TwccSample.sequence,
      (∀ sequence ∈ (front :: rest).map TwccSample.sequence,
        behindStart start sequence ≤ behindStart start newest) ∧
      (maxSequence front.sequence (front :: rest) - front.sequence + 1).toNat =
        behindStart start newest + 1 - behindStart start front.sequence ∧
      behindStart start newest < 4096 := by
  rw [List.map_cons] at inside ⊢
  obtain ⟨member, above⟩ := newest_of_span inside
  have newest : maxSequence front.sequence (front :: rest) =
      (rest.map TwccSample.sequence).foldl newerSequence front.sequence := by
    rw [maxSequence, List.foldl_cons, newerSequence, ite_self, List.foldl_map]
  have last := inside _ member
  have first := inside _ List.mem_cons_self
  have ordered := above _ List.mem_cons_self
  have difference := toNat_sub_of_span last first
  rw [if_pos ordered] at difference
  refine ⟨_, member, above, ?_, last⟩
  rw [newest, UInt16.toNat_add, difference, show (1 : UInt16).toNat = 1 from rfl]
  omega

/-- A feedback that is due is sent, and ends with the newest number that waits. -/
private theorem sent_of_due (due : r.Due atUs)
    (inside : WithinSpan start (r.pending.map TwccSample.sequence)) :
    ∃ feedback, (r.maybeSendTwccFeedback atUs).2 = some feedback ∧
      ∃ newest ∈ r.pending.map TwccSample.sequence,
        (∀ sequence ∈ r.pending.map TwccSample.sequence,
          behindStart start sequence ≤ behindStart start newest) ∧
        feedback.packetCount.toNat =
          behindStart start newest + 1 - behindStart start feedback.baseSequence := by
  obtain ⟨nonempty, late⟩ := due
  obtain ⟨front, rest, queue⟩ := List.exists_cons_of_ne_nil nonempty
  rw [queue] at inside ⊢
  obtain ⟨newest, member, above, count, last⟩ := packetCount_of_span inside
  have ordered := above _ List.mem_cons_self
  have fits : ¬(maxSequence front.sequence (front :: rest) - front.sequence + 1 = 0 ∨
      maxSequence front.sequence (front :: rest) - front.sequence + 1 > maxTwccPackets) := by
    rw [← UInt16.toNat_inj, gt_iff_lt, UInt16.lt_iff_toNat_lt, count,
      show maxTwccPackets.toNat = 4096 from rfl, show (0 : UInt16).toNat = 0 from rfl]
    omega
  have sent : ∃ feedback, (r.maybeSendTwccFeedback atUs).2 = some feedback ∧
      feedback.baseSequence = front.sequence ∧ feedback.packetCount =
        maxSequence front.sequence (front :: rest) - front.sequence + 1 := by
    simp only [TwccReceiver.maybeSendTwccFeedback, queue, if_neg (Int.not_lt.mpr late), if_neg fits]
    exact ⟨_, rfl, rfl, rfl⟩
  obtain ⟨feedback, sent, base, packets⟩ := sent
  exact ⟨feedback, sent, newest, member, above, by rw [packets, count, base]⟩

private theorem silent_of_not_due (early : ¬r.Due atUs) : (r.maybeSendTwccFeedback atUs).2 = none := by
  rw [TwccReceiver.maybeSendTwccFeedback]
  split
  case h_1 => rfl
  case h_2 front rest queue =>
    rw [if_pos]
    by_contra late
    exact early ⟨by simp [queue], Int.not_lt.mp late⟩

/-- A feedback that is sent calls no received packet lost exactly when none is forgotten between its
ends. -/
private theorem markedLost_iff (due : r.Due atUs) (own : r.pending.map TwccSample.sequence ⊆ received)
    (inside : WithinSpan start received) :
    (∀ feedback ∈ (r.maybeSendTwccFeedback atUs).2, ∀ sequence ∈ feedback.markedLost,
        sequence ∉ received) ↔
      NoneForgottenBetween start received (r.pending.map TwccSample.sequence) := by
  obtain ⟨feedback, sent, newest, member, above, count⟩ := sent_of_due due fun sequence one =>
    inside sequence (own one)
  have made := madeFrom_of_sent sent
  have head : (r.pending.map TwccSample.sequence).head? = some feedback.baseSequence := by
    rw [List.head?_map, made.base]
  have base := inside _ (own (List.mem_of_mem_head? head))
  have last := inside _ (own member)
  simp only [sent, Option.mem_some_iff, forall_eq', NoneForgottenBetween, head, mem_markedLost made]
  constructor
  · intro honest newer waits sequence received_ lower upper
    by_contra missing
    have end_ := above newer waits
    refine honest sequence ⟨missing, behindStart start sequence - behindStart start feedback.baseSequence,
      by omega, ?_⟩ received_
    apply @behindStart_injective start
    rw [behindStart_add (by omega)]
    omega
  · rintro none sequence ⟨missing, offset, among, rfl⟩ received_
    have place : behindStart start (feedback.baseSequence + UInt16.ofNat offset) =
        behindStart start feedback.baseSequence + offset := behindStart_add (by omega)
    have lower : offset ≠ 0 := by
      rintro rfl
      exact missing (by simpa using List.mem_of_mem_head? head)
    have upper : behindStart start feedback.baseSequence + offset ≠ behindStart start newest := by
      intro same
      exact missing (behindStart_injective (place.trans same) ▸ member)
    exact missing (none newest member _ received_ (by omega) (by omega))

/-! ## Runs -/

/-- What waits after a call has waited before or comes with it. -/
private theorem pending_observed (rtc : Rtc) (r : TwccReceiver) (call : TwccCall) :
    (r.observed rtc call).pending.map TwccSample.sequence ⊆
      r.pending.map TwccSample.sequence ++ call.stamps rtc := by
  rw [TwccReceiver.observed, (observe_all rtc r call.arrivals).2]
  exact (pushLatest_suffix maxTwccSamples _ _).subset

private theorem pending_step (rtc : Rtc) (r : TwccReceiver) (call : TwccCall) :
    ((twccMachine rtc).step r call).1.pending.map TwccSample.sequence ⊆
      (r.observed rtc call).pending.map TwccSample.sequence := by
  change ((r.observed rtc call).maybeSendTwccFeedback call.atUs).1.pending.map _ ⊆ _
  rw [TwccReceiver.maybeSendTwccFeedback]
  split
  · exact List.Subset.refl _
  · dsimp only
    split_ifs
    · exact List.Subset.refl _
    · exact List.nil_subset _
    · exact List.nil_subset _

/-- Only what has been received waits. -/
private theorem pending_run (rtc : Rtc) (r : TwccReceiver) (calls : List TwccCall) :
    ((twccMachine rtc).final r calls).pending.map TwccSample.sequence ⊆
      r.pending.map TwccSample.sequence ++ calls.flatMap (TwccCall.stamps rtc) := by
  induction calls generalizing r with
  | nil => exact List.subset_append_left _ _
  | cons call calls ih =>
    rw [Transducer.final_cons, List.flatMap_cons, ← List.append_assoc]
    refine List.Subset.trans (ih _) (List.append_subset.mpr ⟨?_, List.subset_append_right _ _⟩)
    refine List.Subset.trans (pending_step rtc r call) (List.Subset.trans (pending_observed rtc r call) ?_)
    exact List.subset_append_left _ _

/-- In a run whose numbers lie within a span of 4096, no feedback calls a received packet lost exactly when
at every feedback that is due nothing received lies, unless it waits itself, between the first packet that
waits and a newer one. -/
theorem neverCallsReceivedLost_iff (rtc : Rtc) (calls : List TwccCall) (start : UInt16)
    (inside : WithinSpan start (calls.flatMap (TwccCall.stamps rtc))) :
    NeverCallsReceivedLost rtc calls ↔
      ∀ before call after, calls = before ++ call :: after →
        (((twccMachine rtc).final {} before).observed rtc call).Due call.atUs →
          NoneForgottenBetween start ((before ++ [call]).flatMap (TwccCall.stamps rtc))
            ((((twccMachine rtc).final {} before).observed rtc call).pending.map TwccSample.sequence) := by
  rw [NeverCallsReceivedLost]
  refine forall_congr' fun before => forall_congr' fun call => forall_congr' fun after =>
    forall_congr' fun cut => ?_
  have own : (((twccMachine rtc).final {} before).observed rtc call).pending.map TwccSample.sequence ⊆
      (before ++ [call]).flatMap (TwccCall.stamps rtc) := by
    rw [List.flatMap_append, List.flatMap_singleton]
    refine List.Subset.trans (pending_observed rtc _ call)
      (List.append_subset.mpr ⟨?_, List.subset_append_right _ _⟩)
    exact List.Subset.trans (pending_run rtc {} before) (List.subset_append_left _ _)
  have bounded : WithinSpan start ((before ++ [call]).flatMap (TwccCall.stamps rtc)) := by
    intro sequence member
    apply inside
    rw [cut, ← List.singleton_append, ← List.append_assoc, List.flatMap_append]
    exact List.mem_append_left _ member
  by_cases due : (((twccMachine rtc).final {} before).observed rtc call).Due call.atUs
  · rw [forall_prop_of_true due]
    exact markedLost_iff due own bounded
  · rw [forall_prop_of_false due, iff_true]
    intro feedback sent
    rw [show ((twccMachine rtc).step ((twccMachine rtc).final {} before) call).2 = none from
      silent_of_not_due due] at sent
    contradiction

/-! ## Two runs -/

/-- Packet 3 is late, and comes behind a newer one of its interval. -/
private def lateInside : List TwccCall :=
  [⟨[(250000, some (stampedPacket 2)), (250000, some (stampedPacket 1)), (250000, some (stampedPacket 4))],
      250000⟩,
    ⟨[(500000, some (stampedPacket 5)), (500000, some (stampedPacket 3)), (500000, some (stampedPacket 6))],
      500000⟩]

theorem neverCallsReceivedLost_lateInside : NeverCallsReceivedLost .rfc5761 lateInside := by
  apply (neverCallsReceivedLost_iff .rfc5761 lateInside 0 (by decide +kernel)).mpr
  rintro (_ | ⟨first, _ | ⟨second, before⟩⟩) call after cut due
  · obtain ⟨rfl, _⟩ := List.cons.inj cut
    decide +kernel
  · obtain ⟨rfl, behind⟩ := List.cons.inj cut
    obtain ⟨rfl, _⟩ := List.cons.inj behind
    decide +kernel
  · have short := congrArg List.length cut
    simp [lateInside] at short

/-- Packets 2 and 3 are reported in their interval. Then packet 1 comes late and heads the next one. -/
private def lateAhead : List TwccCall :=
  [⟨[(250000, some (stampedPacket 2)), (250000, some (stampedPacket 3))], 250000⟩,
    ⟨[(500000, some (stampedPacket 1)), (500000, some (stampedPacket 4))], 500000⟩]

private def lateAheadFeedback : TwccFeedback where
  baseSequence := 1
  packetCount := 4
  referenceTime := 7
  feedbackCount := 1
  chunks := [0x2001, 0x0002, 0x2001]
  receivedCount := 2

/-- The second feedback marks packets 2 and 3. -/
theorem lateAhead_calls_received_lost :
    WithinSpan 0 (lateAhead.flatMap (TwccCall.stamps .rfc5761)) ∧
      ¬NeverCallsReceivedLost .rfc5761 lateAhead := by
  refine ⟨by decide +kernel, fun never => ?_⟩
  exact never [lateAhead[0]] lateAhead[1] [] rfl lateAheadFeedback (by decide +kernel) 2 (by decide +kernel)
    (by decide +kernel)

end WeakNetVideo
