import WeakNetVideo.Soundness.TransportLoss

/-! # A snapshot tells of the history

The estimator keeps queues that every call trims, and the last report of each kind. What it measures at any time is a
plain function of everything that has been called: of what went by in the last two seconds, of the packets that set
a new maximum in that time, and of the last reports, if they are fresh.
-/

namespace WeakNetVideo

variable {calls : List EstimatorCall} {truth : List (ℤ × ℤ)} {atUs : ℤ}

/-! ## What has been called -/

namespace EstimatorCall

def sentBytes : EstimatorCall → Option (ℤ × ℕ)
  | rtpSent atUs _ _ bytes => some (atUs, bytes)
  | _ => none

def receivedBytes : EstimatorCall → Option (ℤ × ℕ)
  | rtpReceived atUs _ _ bytes => some (atUs, bytes)
  | _ => none

def rtcpBytes : EstimatorCall → Option (ℤ × ℕ)
  | rtcp atUs bytes => some (atUs, bytes)
  | _ => none

/-- What a receiver report says. -/
def report : EstimatorCall → Option RemoteReport
  | receiverReport atUs fractionLost jitterRtpTicks lastSr delaySinceLastSr => some {
      atUs := atUs
      lossPercent := fractionLost.toNat * 100 / 256
      jitterMs := jitterRtpTicks.toNat * 1000 / videoClockRate
      rttMs := roundTripMs atUs lastSr delaySinceLastSr }
  | _ => none

/-- What a report of the transport loss says; no more are lost than were expected. -/
def toldLoss : EstimatorCall → Option TransportLossSample
  | remoteTransportLoss atUs expectedPackets lostPackets =>
    some ⟨atUs, expectedPackets, min lostPackets expectedPackets⟩
  | _ => none

end EstimatorCall

/-- What some calls let through in the last two seconds, in `kbit/s`. -/
def recentKbps (bytesOf : EstimatorCall → Option (ℤ × ℕ)) (calls : List EstimatorCall) (atUs : ℤ) : ℚ :=
  bitrateKbps ((calls.filterMap bytesOf).filter fun passed => decide (atUs - statsWindowUs ≤ passed.1))

/-- The packets received in the last two seconds. -/
def recentlyReceived (calls : List EstimatorCall) (atUs : ℤ) : List PacketSample :=
  (receivedSamples calls).filter fun sample => decide (atUs - statsWindowUs ≤ sample.atUs)

/-- The part of the expected packets that the advances of the last two seconds left out. -/
def recentLossPercent (truth : List (ℤ × ℤ)) (atUs : ℤ) : ℚ :=
  ((recentAdvances truth atUs).map Advance.lost).sum * 100 / ((recentAdvances truth atUs).map Advance.expected).sum

/-- The last receiver report, if it is fresh. -/
def freshReport (calls : List EstimatorCall) (atUs : ℤ) : Option RemoteReport :=
  (calls.filterMap EstimatorCall.report).getLast?.filter fun report => decide (atUs - report.atUs < remoteReportFreshUs)

/-- The last report of the transport loss, if it is fresh and says something. -/
def freshLoss (calls : List EstimatorCall) (atUs : ℤ) : Option TransportLossSample :=
  (calls.filterMap EstimatorCall.toldLoss).getLast?.filter fun loss =>
    decide (atUs - loss.atUs < transportLossReportFreshUs ∧ loss.expectedPackets > 0)

/-- What there is to measure of a history: `truth` are its received packets with their true numbers. -/
def historyQuality (calls : List EstimatorCall) (truth : List (ℤ × ℤ)) (atUs : ℤ) : MeasuredQuality where
  rttMs := (freshReport calls atUs).elim 0 RemoteReport.rttMs
  lossPercent :=
    (freshReport calls atUs).elim (localLossPercent (recentlyReceived calls atUs)) RemoteReport.lossPercent
  jitterMs := (freshReport calls atUs).elim (localJitterMs (recentlyReceived calls atUs)) RemoteReport.jitterMs
  transportLossPercent :=
    (freshLoss calls atUs).elim (recentLossPercent truth atUs) fun loss =>
      lossPercentOf loss.expectedPackets loss.lostPackets
  sendKbps := recentKbps EstimatorCall.sentBytes calls atUs
  receiveKbps := recentKbps EstimatorCall.receivedBytes calls atUs
  ackKbps := recentKbps EstimatorCall.rtcpBytes calls atUs

/-! ## Windows over the history -/

section Windows

variable {bytesOf : EstimatorCall → Option (ℤ × ℕ)} {window : NetworkQualityEstimator → ByteWindow}

/-- A window that every call appends what it lets through to, and trims then, at its own time. -/
structure Collected (bytesOf : EstimatorCall → Option (ℤ × ℕ)) (window : NetworkQualityEstimator → ByteWindow) :
    Prop where
  start : window {} = []
  timed : ∀ call passed, bytesOf call = some passed → passed.1 = call.atUs
  kept : ∀ e call, bytesOf call = none → window (call.apply e) = window e ∨
    window (call.apply e) = trimByteWindow call.atUs (window e)
  added : ∀ e call passed, bytesOf call = some passed →
    window (call.apply e) = trimByteWindow call.atUs (window e ++ [passed])

private theorem Collected.holds (collected : Collected bytesOf window) (ordered : CallsInOrder calls atUs) :
    Window.Holds Prod.fst (atUs - statsWindowUs) (calls.filterMap bytesOf) (window (estimatorAfter calls)) := by
  apply @invariant_of_ordered _ _ fun now e calls =>
    Window.Holds Prod.fst (now - statsWindowUs) (calls.filterMap bytesOf) (window e)
  · intro now
    rw [collected.start]
    exact Window.Holds.refl _ _
  · intro now e calls call holds passed
    have cut := sub_le_sub_right passed statsWindowUs
    rw [List.filterMap_append]
    cases here : bytesOf call with
    | none =>
      rw [List.filterMap_cons_none here, List.filterMap_nil, List.append_nil]
      rcases collected.kept e call here with same | trimmed
      · rw [same]
        exact holds.mono cut
      · rw [trimmed]
        exact holds.trim cut
    | some bytes =>
      rw [List.filterMap_cons_some here, List.filterMap_nil, collected.added e call bytes here]
      exact (holds.append _).trim cut
  · exact fun now late e calls holds passed => holds.mono (sub_le_sub_right passed _)
  · exact ordered

private theorem Collected.sorted (collected : Collected bytesOf window) (ordered : CallsInOrder calls atUs) :
    ((calls.filterMap bytesOf).map Prod.fst).Pairwise (· ≤ ·) := by
  apply List.Pairwise.sublist ?_ (List.pairwise_append.mp ordered).1
  clear ordered
  induction calls with
  | nil => exact .slnil
  | cons call calls ih =>
    cases here : bytesOf call with
    | none =>
      rw [List.filterMap_cons_none here]
      exact ih.cons _
    | some passed =>
      rw [List.filterMap_cons_some here, List.map_cons, List.map_cons, collected.timed call passed here]
      exact ih.cons_cons _

/-- The rate of such a window is that of the last two seconds. -/
theorem Collected.kbps (collected : Collected bytesOf window) (ordered : CallsInOrder calls atUs) :
    bitrateKbps (trimByteWindow atUs (window (estimatorAfter calls))) = recentKbps bytesOf calls atUs :=
  congrArg bitrateKbps ((collected.holds ordered).trim_eq_filter (le_refl _) (collected.sorted ordered))

end Windows

theorem collected_sentBytes : Collected EstimatorCall.sentBytes NetworkQualityEstimator.sentBytesWindow where
  start := rfl
  timed call passed here := by cases call <;> cases here; rfl
  kept e call here := by
    cases call with
    | rtpSent => cases here
    | snapshot => exact .inr rfl
    | rtpReceived | rtcp | receiverReport | twccFeedback | remoteTransportLoss | transportLossReport => exact .inl rfl
  added e call passed here := by cases call <;> cases here; rfl

theorem collected_receivedBytes :
    Collected EstimatorCall.receivedBytes NetworkQualityEstimator.receivedBytesWindow where
  start := rfl
  timed call passed here := by cases call <;> cases here; rfl
  kept e call here := by
    cases call with
    | rtpReceived => cases here
    | snapshot => exact .inr rfl
    | rtpSent | rtcp | receiverReport | twccFeedback | remoteTransportLoss | transportLossReport => exact .inl rfl
  added e call passed here := by cases call <;> cases here; rfl

theorem collected_rtcpBytes : Collected EstimatorCall.rtcpBytes NetworkQualityEstimator.rtcpBytesWindow where
  start := rfl
  timed call passed here := by cases call <;> cases here; rfl
  kept e call here := by
    cases call with
    | rtcp => cases here
    | snapshot => exact .inr rfl
    | rtpSent | rtpReceived | receiverReport | twccFeedback | remoteTransportLoss | transportLossReport =>
      exact .inl rfl
  added e call passed here := by cases call <;> cases here; rfl

/-! ## The last reports -/

private theorem remoteReport_after (calls : List EstimatorCall) :
    (estimatorAfter calls).remoteReport = (calls.filterMap EstimatorCall.report).getLast? := by
  induction calls using List.reverseRecOn with
  | nil => rfl
  | append_singleton calls call ih =>
    rw [estimatorAfter_append, List.filterMap_append]
    cases call with
    | receiverReport => exact (List.getLast?_concat ..).symm
    | rtpSent | rtpReceived | rtcp | twccFeedback | remoteTransportLoss | transportLossReport | snapshot =>
      exact ih.trans (congrArg List.getLast? (List.append_nil _).symm)

private theorem remoteTransportLoss_after (calls : List EstimatorCall) :
    (estimatorAfter calls).remoteTransportLoss = (calls.filterMap EstimatorCall.toldLoss).getLast? := by
  induction calls using List.reverseRecOn with
  | nil => rfl
  | append_singleton calls call ih =>
    rw [estimatorAfter_append, List.filterMap_append]
    cases call with
    | remoteTransportLoss => exact (List.getLast?_concat ..).symm
    | rtpSent | rtpReceived | rtcp | twccFeedback | receiverReport | transportLossReport | snapshot =>
      exact ih.trans (congrArg List.getLast? (List.append_nil _).symm)

/-! ## Snapshots -/

/-- The transport loss that is measured locally is that of the recent advances. -/
theorem localTransportLossPercent_of_run (ordered : CallsInOrder calls atUs)
    (seen : receptions calls = onTheWire truth) (reach : WithinReach none truth)
    (fits : ((recentAdvances truth atUs).map Advance.expected).sum < 2 ^ 32) :
    localTransportLossPercent (trimTransportLossWindow atUs (estimatorAfter calls).transportLossSamples) =
      recentLossPercent truth atUs := by
  have report : sumTransportLoss (trimTransportLossWindow atUs (estimatorAfter calls).transportLossSamples) =
      (UInt32.ofInt ((recentAdvances truth atUs).map Advance.expected).sum,
        UInt32.ofInt ((recentAdvances truth atUs).map Advance.lost).sum) :=
    transportLossReport_eq ordered seen reach (arrivals_sorted ordered seen)
  have bounds := lost_le_expected fun advance (member : advance ∈ recentAdvances truth atUs) =>
    advance_bounds (List.mem_filter.mp member).1
  have word {number : ℤ} (nonneg : 0 ≤ number) (small : number < 2 ^ 32) :
      (((UInt32.ofInt number).toNat : ℕ) : ℚ) = number := by
    have same : ((UInt32.ofInt number).toNat : ℤ) = number := by
      simp only [UInt32.ofInt, UInt32.toNat_ofNat']
      omega
    exact_mod_cast same
  have expected := word (bounds.1.trans bounds.2) fits
  have lost := word bounds.1 (bounds.2.trans_lt fits)
  rw [localTransportLossPercent, recentLossPercent, report]
  simp only
  split_ifs with nothing
  · rw [nothing] at expected
    rw [← expected]
    simp
  · rw [lossPercentOf, expected, lost]

/-- Fresh reports take the place of what is measured locally. -/
private theorem overruled_eq (e : NetworkQualityEstimator) (quality : MeasuredQuality) :
    e.overruled atUs quality =
      let report := e.remoteReport.filter fun report => decide (atUs - report.atUs < remoteReportFreshUs)
      let loss := e.remoteTransportLoss.filter fun loss =>
        decide (atUs - loss.atUs < transportLossReportFreshUs ∧ loss.expectedPackets > 0)
      { quality with
        rttMs := report.elim quality.rttMs RemoteReport.rttMs
        lossPercent := report.elim quality.lossPercent RemoteReport.lossPercent
        jitterMs := report.elim quality.jitterMs RemoteReport.jitterMs
        transportLossPercent := loss.elim quality.transportLossPercent fun loss =>
          lossPercentOf loss.expectedPackets loss.lostPackets } := by
  rw [NetworkQualityEstimator.overruled]
  cases e.remoteReport with
  | none =>
    cases e.remoteTransportLoss with
    | none => rfl
    | some loss =>
      by_cases told : atUs - loss.atUs < transportLossReportFreshUs ∧ loss.expectedPackets > 0 <;>
        simp [told, Option.filter_some]
  | some report =>
    by_cases fresh : atUs - report.atUs < remoteReportFreshUs <;>
    cases e.remoteTransportLoss with
    | none => simp [fresh, Option.filter_some]
    | some loss =>
      by_cases told : atUs - loss.atUs < transportLossReportFreshUs ∧ loss.expectedPackets > 0 <;>
        simp [fresh, told, Option.filter_some]

/-- After any run a snapshot measures what there is to measure of the history of its calls. -/
theorem snapshot_of_history (seen : receptions calls = onTheWire truth) (ordered : CallsInOrder calls atUs)
    (reach : WithinReach none truth) (fits : ((recentAdvances truth atUs).map Advance.expected).sum < 2 ^ 32) :
    ((estimatorAfter calls).snapshot atUs).2 = historyQuality calls truth atUs := by
  have sent := collected_sentBytes.kbps ordered
  have received := collected_receivedBytes.kbps ordered
  have rtcp := collected_rtcpBytes.kbps ordered
  have packets := receivedPackets_trimmed ordered
  have transport := localTransportLossPercent_of_run ordered seen reach fits
  have measured : ((estimatorAfter calls).trimmed atUs).localQuality = {
      lossPercent := localLossPercent (recentlyReceived calls atUs)
      jitterMs := localJitterMs (recentlyReceived calls atUs)
      transportLossPercent := recentLossPercent truth atUs
      sendKbps := recentKbps EstimatorCall.sentBytes calls atUs
      receiveKbps := recentKbps EstimatorCall.receivedBytes calls atUs
      ackKbps := recentKbps EstimatorCall.rtcpBytes calls atUs } := by
    rw [NetworkQualityEstimator.localQuality, packets]
    simp only [NetworkQualityEstimator.trimmed, sent, received, rtcp, transport, recentlyReceived]
  rw [NetworkQualityEstimator.snapshot, measured, overruled_eq, remoteReport_after, remoteTransportLoss_after]
  rfl

/-- Packets that are sent, packets that are received with numbers that wrap, an old report and a fresh one. -/
def mixedCalls : List EstimatorCall :=
  [.rtpSent 0 1 0 1000, .rtpReceived 0 65534 0 100, .remoteTransportLoss 700000 10 2, .rtcp 700000 40,
    .receiverReport 1500000 64 900 0 0, .rtpReceived 2300000 0 3000 100, .rtpSent 3600000 3 6000 1250,
    .rtcp 3800000 60, .rtpSent 4100000 4 9000 1250]

theorem snapshot_of_history_mixed :
    ((estimatorAfter mixedCalls).snapshot 4200000).2 =
        { lossPercent := 25, jitterMs := 10, transportLossPercent := 50, sendKbps := 40 } ∧
      ((estimatorAfter mixedCalls).snapshot 4200000).2 =
        historyQuality mixedCalls [(0, 65534), (2300000, 65536)] 4200000 := by
  have same := @snapshot_of_history mixedCalls [(0, 65534), (2300000, 65536)] 4200000 (by decide) (by decide)
    (by decide) (by decide)
  exact ⟨same.trans (by decide +kernel), same⟩

end WeakNetVideo
