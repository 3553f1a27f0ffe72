import WeakNetVideo.Proofs.EstimatorRuns

/-! # The account of transport loss

The estimator sees sixteen bits of every sequence number and keeps the newest one. Its report counts, over
the last two seconds, how far the packets that set a new maximum of the true numbers moved it. A packet
that sets none changes no report.
-/

namespace WeakNetVideo

variable {e : NetworkQualityEstimator} {calls others : List EstimatorCall} {truth : List (ℤ × ℤ)} {now atUs : ℤ}
  {newest : Option ℤ}

/-- When packets are received, and with which numbers. -/
def receptions (calls : List EstimatorCall) : List (ℤ × UInt16) :=
  (receivedSamples calls).map fun sample => (sample.atUs, sample.sequence)

/-- The low sixteen bits of true sequence numbers. -/
def onTheWire (truth : List (ℤ × ℤ)) : List (ℤ × UInt16) :=
  truth.map fun arrival => (arrival.1, UInt16.ofInt arrival.2)

/-- Every number lies at most 32767 above and 32768 below the largest one before it. -/
def WithinReach : Option ℤ → List (ℤ × ℤ) → Prop
  | _, [] => True
  | none, arrival :: rest => WithinReach (some arrival.2) rest
  | some newest, arrival :: rest =>
    newest - 32768 ≤ arrival.2 ∧ arrival.2 ≤ newest + 32767 ∧ WithinReach (some (max newest arrival.2)) rest

instance instDecidableWithinReach : (newest : Option ℤ) → (truth : List (ℤ × ℤ)) → Decidable (WithinReach newest truth)
  | _, [] => .isTrue trivial
  | none, arrival :: rest => instDecidableWithinReach (some arrival.2) rest
  | some newest, arrival :: rest =>
    @instDecidableAnd _ _ _ (@instDecidableAnd _ _ _ (instDecidableWithinReach (some (max newest arrival.2)) rest))

/-- An arrival that sets a new maximum: what it adds to the expected and to the lost packets. -/
structure Advance where
  atUs : ℤ
  expected : ℤ
  lost : ℤ
deriving DecidableEq, Repr

/-- The arrivals that set a new maximum, the very first among them. -/
def advances : Option ℤ → List (ℤ × ℤ) → List Advance
  | _, [] => []
  | none, arrival :: rest => ⟨arrival.1, 1, 0⟩ :: advances (some arrival.2) rest
  | some newest, arrival :: rest =>
    if newest < arrival.2 then
      ⟨arrival.1, arrival.2 - newest, arrival.2 - newest - 1⟩ :: advances (some arrival.2) rest
    else advances (some newest) rest

/-- The advances that are not older than two seconds. -/
def recentAdvances (truth : List (ℤ × ℤ)) (atUs : ℤ) : List Advance :=
  (advances none truth).filter fun advance => decide (atUs - statsWindowUs ≤ advance.atUs)

/-- The largest number after some arrivals. -/
def newestAfter : Option ℤ → List (ℤ × ℤ) → Option ℤ
  | newest, [] => newest
  | none, arrival :: rest => newestAfter (some arrival.2) rest
  | some newest, arrival :: rest => newestAfter (some (max newest arrival.2)) rest

/-! ## Words -/

private theorem toInt_toInt16 (word : UInt16) : word.toInt16.toInt = (word.toNat : ℤ).bmod 65536 := by
  simp [Int16.toInt, BitVec.toInt_eq_toNat_bmod]

private theorem toNat_sub_ofInt (left right : ℤ) :
    ((UInt16.ofInt left - UInt16.ofInt right).toNat : ℤ) = (left - right) % 65536 := by
  rw [UInt16.toNat_sub]
  simp only [UInt16.ofInt, UInt16.toNat_ofNat']
  omega

/-- The signed difference of sixteen bits is the true one within reach. -/
private theorem toInt_sub_ofInt {newest number : ℤ} (below : newest - 32768 ≤ number)
    (above : number ≤ newest + 32767) :
    (UInt16.ofInt number - UInt16.ofInt newest).toInt16.toInt = number - newest := by
  rw [toInt_toInt16, toNat_sub_ofInt, Int.bmod]
  split_ifs <;> omega

private theorem toNat_ofInt {number : ℤ} (nonneg : 0 ≤ number) (fits : number < 2 ^ 32) :
    ((UInt32.ofInt number).toNat : ℤ) = number := by
  simp only [UInt32.ofInt, UInt32.toNat_ofNat']
  omega

/-! ## Advances -/

/-- The sample that the estimator keeps of an advance. -/
def Advance.sample (advance : Advance) : TransportLossSample :=
  ⟨advance.atUs, UInt32.ofInt advance.expected, UInt32.ofInt advance.lost⟩

theorem newestAfter_append (newest : Option ℤ) (truth later : List (ℤ × ℤ)) :
    newestAfter newest (truth ++ later) = newestAfter (newestAfter newest truth) later := by
  induction truth generalizing newest with
  | nil => cases newest <;> rfl
  | cons arrival truth ih => cases newest <;> exact ih _

theorem advances_append (newest : Option ℤ) (truth later : List (ℤ × ℤ)) :
    advances newest (truth ++ later) = advances newest truth ++ advances (newestAfter newest truth) later := by
  induction truth generalizing newest with
  | nil => cases newest <;> rfl
  | cons arrival truth ih =>
    cases newest with
    | none => exact congrArg _ (ih _)
    | some newest =>
      rw [List.cons_append, advances, advances, newestAfter, ih, ih]
      split_ifs with higher
      · rw [max_eq_right (le_of_lt higher), List.cons_append]
      · rw [max_eq_left (not_lt.mp higher)]

theorem withinReach_append (newest : Option ℤ) (truth later : List (ℤ × ℤ)) :
    WithinReach newest (truth ++ later) ↔
      WithinReach newest truth ∧ WithinReach (newestAfter newest truth) later := by
  induction truth generalizing newest with
  | nil => cases newest <;> exact (and_iff_right trivial).symm
  | cons arrival truth ih =>
    cases newest with
    | none => exact ih _
    | some newest => rw [List.cons_append, WithinReach, WithinReach, newestAfter, ih, and_assoc, and_assoc]

/-- The maximum does not fall. -/
theorem newestAfter_some (newest : ℤ) (truth : List (ℤ × ℤ)) :
    ∃ number, newestAfter (some newest) truth = some number ∧ newest ≤ number := by
  induction truth generalizing newest with
  | nil => exact ⟨newest, rfl, le_refl newest⟩
  | cons arrival truth ih =>
    obtain ⟨number, after, above⟩ := ih (max newest arrival.2)
    exact ⟨number, after, le_trans (le_max_left _ _) above⟩

/-- No arrival is above the maximum behind it. -/
theorem newestAfter_of_mem {before : List (ℤ × ℤ)} {earlier : ℤ × ℤ} (member : earlier ∈ before) :
    ∃ number, newestAfter newest before = some number ∧ earlier.2 ≤ number := by
  obtain ⟨front, back, rfl⟩ := List.append_of_mem member
  rw [newestAfter_append]
  cases newestAfter newest front with
  | none => exact newestAfter_some earlier.2 back
  | some number =>
    obtain ⟨later, after, above⟩ := newestAfter_some (max number earlier.2) back
    exact ⟨later, after, le_trans (le_max_right _ _) above⟩

/-- An arrival that is not above an earlier one sets no new maximum. -/
theorem advances_of_late {before after : List (ℤ × ℤ)} {late earlier : ℤ × ℤ} (member : earlier ∈ before)
    (le : late.2 ≤ earlier.2) :
    advances none (before ++ late :: after) = advances none (before ++ after) := by
  obtain ⟨number, newest, above⟩ := @newestAfter_of_mem none _ _ member
  rw [advances_append, advances_append, newest, advances, if_neg (not_lt.mpr (le_trans le above))]

/-- Nor does it matter to the reach of the others. -/
theorem withinReach_of_late {before after : List (ℤ × ℤ)} {late earlier : ℤ × ℤ} (member : earlier ∈ before)
    (le : late.2 ≤ earlier.2) (reach : WithinReach none (before ++ late :: after)) :
    WithinReach none (before ++ after) := by
  obtain ⟨number, newest, above⟩ := @newestAfter_of_mem none _ _ member
  rw [withinReach_append, newest] at reach ⊢
  obtain ⟨inside, -, -, behind⟩ := reach
  exact ⟨inside, by rwa [max_eq_left (le_trans le above)] at behind⟩

/-- With the first number the advances add up to the distance to the largest. -/
theorem sum_advances_some (newest : ℤ) (truth : List (ℤ × ℤ)) :
    ((advances (some newest) truth).map Advance.expected).sum =
      (truth.map Prod.snd).foldl max newest - newest := by
  induction truth generalizing newest with
  | nil => exact (sub_self newest).symm
  | cons arrival truth ih =>
    rw [advances, List.map_cons, List.foldl_cons]
    split_ifs with higher
    · rw [List.map_cons, List.sum_cons, ih, max_eq_right (le_of_lt higher)]
      exact sub_add_sub_cancel' _ _ _
    · rw [ih, max_eq_left (not_lt.mp higher)]

/-- An advance expects at least one packet, and lost are those before it. -/
theorem advance_bounds {advance : Advance} (member : advance ∈ advances newest truth) :
    1 ≤ advance.expected ∧ advance.lost = advance.expected - 1 := by
  induction truth generalizing newest with
  | nil => cases newest <;> cases member
  | cons arrival truth ih =>
    cases newest with
    | none =>
      rcases List.mem_cons.mp member with rfl | member
      · exact ⟨le_refl 1, rfl⟩
      · exact ih member
    | some newest =>
      rw [advances] at member
      split_ifs at member with higher
      · rcases List.mem_cons.mp member with rfl | member
        · exact ⟨Int.add_one_le_of_lt (sub_pos.mpr higher), rfl⟩
        · exact ih member
      · exact ih member

/-- Advances have the times of arrivals, in their order. -/
theorem advances_atUs_sublist (newest : Option ℤ) (truth : List (ℤ × ℤ)) :
    ((advances newest truth).map Advance.atUs).Sublist (truth.map Prod.fst) := by
  induction truth generalizing newest with
  | nil => cases newest <;> exact .slnil
  | cons arrival truth ih =>
    cases newest with
    | none => exact (ih _).cons_cons _
    | some newest =>
      rw [advances]
      split_ifs
      · exact (ih _).cons_cons _
      · exact (ih _).cons _

/-! ## Runs -/

/-- What the estimator knows at a time: the newest number and the samples of the advances. -/
structure Accounts (e : NetworkQualityEstimator) (newest : Option ℤ) (earned : List Advance) (now : ℤ) : Prop where
  last : e.lastTransportSequence = newest.map UInt16.ofInt
  samples : Window.Holds TransportLossSample.atUs (now - statsWindowUs) (earned.map Advance.sample)
    e.transportLossSamples

variable {earned : List Advance}

private theorem transportLoss_above {number top : ℤ} (reach : number ≤ top + 32767) (higher : top < number) :
    NetworkQualityEstimator.transportLoss (some (UInt16.ofInt top)) (UInt16.ofInt number) =
      (UInt32.ofInt (number - top), UInt32.ofInt (number - top - 1), some (UInt16.ofInt number)) := by
  have difference := toInt_sub_ofInt (by omega : top - 32768 ≤ number) reach
  rw [NetworkQualityEstimator.transportLoss]
  simp only [gt_iff_lt, Int16.lt_iff_toInt_lt, difference]
  exact if_pos (sub_pos.mpr higher)

private theorem transportLoss_late {number top : ℤ} (reach : top - 32768 ≤ number) (late : number ≤ top) :
    NetworkQualityEstimator.transportLoss (some (UInt16.ofInt top)) (UInt16.ofInt number) =
      (0, 0, some (UInt16.ofInt top)) := by
  have difference := toInt_sub_ofInt reach (by omega : number ≤ top + 32767)
  rw [NetworkQualityEstimator.transportLoss]
  simp only [gt_iff_lt, Int16.lt_iff_toInt_lt, difference]
  exact if_neg (not_lt.mpr (sub_nonpos.mpr late))

private theorem ofInt_pos {number : ℤ} (positive : 0 < number) (fits : number < 2 ^ 32) : UInt32.ofInt number > 0 := by
  have same := toNat_ofInt (le_of_lt positive) fits
  rw [gt_iff_lt, UInt32.lt_iff_toNat_lt, UInt32.toNat_zero]
  omega

/-- Samples that are appended when they are received. -/
private theorem Accounts.append (accounts : Accounts e newest earned now) (later : now ≤ atUs) (advance : Advance) :
    Window.Holds TransportLossSample.atUs (atUs - statsWindowUs) ((earned ++ [advance]).map Advance.sample)
      (trimTransportLossWindow atUs (e.transportLossSamples ++ [advance.sample])) := by
  rw [List.map_append]
  exact (accounts.samples.append _).trim (sub_le_sub_right later _)

/-- A received packet is an advance exactly when its true number is a new maximum. -/
private theorem accounts_received (accounts : Accounts e newest earned now) (later : now ≤ atUs) (number : ℤ)
    (reach : WithinReach newest [(atUs, number)]) (rtpTimestamp : UInt32) (bytes : ℕ) :
    Accounts (e.onRtpReceived atUs (UInt16.ofInt number) rtpTimestamp bytes)
      (newestAfter newest [(atUs, number)]) (earned ++ advances newest [(atUs, number)]) atUs := by
  have kept := accounts.samples.mono (sub_le_sub_right later statsWindowUs)
  cases newest with
  | none =>
    have loss : NetworkQualityEstimator.transportLoss e.lastTransportSequence (UInt16.ofInt number) =
        (1, 0, some (UInt16.ofInt number)) := by rw [accounts.last]; rfl
    rw [NetworkQualityEstimator.onRtpReceived, loss]
    exact ⟨rfl, accounts.append later ⟨atUs, 1, 0⟩⟩
  | some top =>
    obtain ⟨below, above, -⟩ := reach
    rw [advances, newestAfter]
    split_ifs with higher
    · rw [NetworkQualityEstimator.onRtpReceived, accounts.last, Option.map_some, transportLoss_above above higher]
      simp only [if_pos (ofInt_pos (sub_pos.mpr higher) (by omega : number - top < 2 ^ 32))]
      rw [max_eq_right (le_of_lt higher)]
      exact ⟨rfl, accounts.append later ⟨atUs, number - top, number - top - 1⟩⟩
    · rw [NetworkQualityEstimator.onRtpReceived, accounts.last, Option.map_some,
        transportLoss_late below (not_lt.mp higher), max_eq_left (not_lt.mp higher)]
      refine ⟨rfl, ?_⟩
      rw [show advances (some top) [] = [] from rfl, List.append_nil]
      exact kept

/-- One call, with the true numbers of the packets it receives. -/
private theorem accounts_step {call : EstimatorCall} (accounts : Accounts e newest earned now)
    (later : now ≤ call.atUs) (seen : receptions [call] = onTheWire truth) (reach : WithinReach newest truth) :
    Accounts (call.apply e) (newestAfter newest truth) (earned ++ advances newest truth) call.atUs := by
  have passed := sub_le_sub_right later statsWindowUs
  have kept := accounts.samples.mono passed
  cases call with
  | rtpReceived atUs sequence rtpTimestamp bytes =>
    obtain ⟨⟨time, number⟩, rfl, same⟩ := List.map_eq_singleton_iff.mp seen.symm
    obtain ⟨rfl, rfl⟩ := Prod.mk.inj same
    exact accounts_received accounts later number reach rtpTimestamp bytes
  | rtpSent | rtcp | receiverReport | twccFeedback | remoteTransportLoss =>
    obtain rfl := List.map_eq_nil_iff.mp seen.symm
    cases newest <;> exact ⟨accounts.last, by rw [advances, List.append_nil]; exact kept⟩
  | transportLossReport | snapshot =>
    obtain rfl := List.map_eq_nil_iff.mp seen.symm
    cases newest <;>
      exact ⟨accounts.last, by rw [advances, List.append_nil]; exact accounts.samples.trim passed⟩

/-- After a run the estimator has the account of all its receptions. -/
theorem accounts_of_run (ordered : CallsInOrder calls atUs) (seen : receptions calls = onTheWire truth)
    (reach : WithinReach none truth) :
    Accounts (estimatorAfter calls) (newestAfter none truth) (advances none truth) atUs := by
  refine @invariant_of_ordered calls atUs (fun now e calls => ∀ truth, receptions calls = onTheWire truth →
    WithinReach none truth → Accounts e (newestAfter none truth) (advances none truth) now) ?_ ?_ ?_ ordered truth
    seen reach
  · intro now truth seen reach
    obtain rfl := List.map_eq_nil_iff.mp seen.symm
    exact ⟨rfl, Window.Holds.refl _ _⟩
  · intro now e calls call accounts later truth seen reach
    rw [receptions, receivedSamples, List.filterMap_append, List.map_append] at seen
    obtain ⟨arrivals, others, rfl, here, behind⟩ := List.map_eq_append_iff.mp seen.symm
    rw [withinReach_append] at reach
    rw [newestAfter_append, advances_append]
    exact accounts_step (accounts arrivals here.symm reach.1) later behind.symm reach.2
  · intro now late e calls accounts later truth seen reach
    obtain ⟨last, samples⟩ := accounts truth seen reach
    exact ⟨last, samples.mono (sub_le_sub_right later _)⟩

/-! ## The report -/

private theorem foldl_sums (samples : List TransportLossSample) (expected lost : UInt32) :
    samples.foldl (fun sums sample => (sums.1 + sample.expectedPackets, sums.2 + sample.lostPackets))
        (expected, lost) =
      (expected + (sumTransportLoss samples).1, lost + (sumTransportLoss samples).2) := by
  induction samples generalizing expected lost with
  | nil => simp [sumTransportLoss]
  | cons sample samples ih =>
    have sums : sumTransportLoss (sample :: samples) = (0 + sample.expectedPackets + (sumTransportLoss samples).1,
        0 + sample.lostPackets + (sumTransportLoss samples).2) := ih _ _
    rw [List.foldl_cons, ih, sums]
    simp only [UInt32.zero_add, UInt32.add_assoc]

/-- The counters of 32 bits add up what the advances moved. -/
private theorem sumTransportLoss_advances (advances : List Advance) :
    sumTransportLoss (advances.map Advance.sample) =
      (UInt32.ofInt (advances.map Advance.expected).sum, UInt32.ofInt (advances.map Advance.lost).sum) := by
  induction advances with
  | nil => rfl
  | cons advance advances ih =>
    rw [List.map_cons, sumTransportLoss, List.foldl_cons, foldl_sums, ih]
    simp [Advance.sample]

/-- What the report returns, before the sums are known to fit. -/
theorem transportLossReport_eq (ordered : CallsInOrder calls atUs) (seen : receptions calls = onTheWire truth)
    (reach : WithinReach none truth) (sorted : (truth.map Prod.fst).Pairwise (· ≤ ·)) :
    ((estimatorAfter calls).transportLossReport atUs).2 =
      (UInt32.ofInt ((recentAdvances truth atUs).map Advance.expected).sum,
        UInt32.ofInt ((recentAdvances truth atUs).map Advance.lost).sum) := by
  have accounts := accounts_of_run ordered seen reach
  have times : (((advances none truth).map Advance.sample).map TransportLossSample.atUs).Pairwise (· ≤ ·) := by
    rw [List.map_map]
    exact sorted.sublist (advances_atUs_sublist none truth)
  have window := accounts.samples.trim_eq_filter (le_refl _) times
  rw [NetworkQualityEstimator.transportLossReport, trimTransportLossWindow, window, List.filter_map,
    sumTransportLoss_advances]
  rfl

/-- Arrivals are in the order of the calls. -/
theorem arrivals_sorted (ordered : CallsInOrder calls atUs) (seen : receptions calls = onTheWire truth) :
    (truth.map Prod.fst).Pairwise (· ≤ ·) := by
  have times : truth.map Prod.fst = (receivedSamples calls).map PacketSample.atUs := by
    have firsts := congrArg (List.map Prod.fst) seen
    rw [receptions, onTheWire, List.map_map, List.map_map] at firsts
    exact firsts.symm
  rw [times]
  exact receivedSamples_sorted ordered

/-- Lost are no more packets than expected. -/
theorem lost_le_expected {advances : List Advance}
    (bounds : ∀ advance ∈ advances, 1 ≤ advance.expected ∧ advance.lost = advance.expected - 1) :
    0 ≤ (advances.map Advance.lost).sum ∧
      (advances.map Advance.lost).sum ≤ (advances.map Advance.expected).sum := by
  induction advances with
  | nil => exact ⟨le_refl 0, le_refl 0⟩
  | cons advance advances ih =>
    obtain ⟨⟨expected, lost⟩, rest⟩ := List.forall_mem_cons.mp bounds
    have sums := ih rest
    simp only [List.map_cons, List.sum_cons]
    omega

/-- While the first arrival is recent, so is every advance. -/
private theorem recentAdvances_of_first {first : ℤ × ℤ} {rest : List (ℤ × ℤ)}
    (sorted : (((first :: rest).map Prod.fst).Pairwise (· ≤ ·))) (recent : atUs - statsWindowUs ≤ first.1) :
    recentAdvances (first :: rest) atUs = advances none (first :: rest) := by
  apply List.filter_eq_self.mpr
  intro advance member
  obtain ⟨arrival, one, same⟩ := List.mem_map.mp
    ((advances_atUs_sublist none (first :: rest)).subset (List.mem_map_of_mem member))
  have notEarlier : first.1 ≤ arrival.1 := by
    rcases List.mem_cons.mp one with rfl | one
    · exact le_refl _
    · exact (List.pairwise_cons.mp sorted).1 _ (List.mem_map_of_mem one)
  exact decide_eq_true (le_trans recent (same ▸ notEarlier))

/-- The report is exact in every run, whatever else is called. A packet that is not above an earlier one
changes nothing, and while the first packet is recent the expected packets are those from it to the
largest. -/
theorem transportLossReport_exact (seen : receptions calls = onTheWire truth) (ordered : CallsInOrder calls atUs)
    (reach : WithinReach none truth) (fits : ((recentAdvances truth atUs).map Advance.expected).sum < 2 ^ 32) :
    let report := ((estimatorAfter calls).transportLossReport atUs).2
    (report.1.toNat : ℤ) = ((recentAdvances truth atUs).map Advance.expected).sum ∧
      (report.2.toNat : ℤ) = ((recentAdvances truth atUs).map Advance.lost).sum ∧
      (∀ before late earlier after, truth = before ++ late :: after → earlier ∈ before → late.2 ≤ earlier.2 →
        ∀ others, CallsInOrder others atUs → receptions others = onTheWire (before ++ after) →
          ((estimatorAfter others).transportLossReport atUs).2 = report) ∧
      ∀ first rest, truth = first :: rest → atUs - statsWindowUs ≤ first.1 →
        (report.1.toNat : ℤ) = (rest.map Prod.snd).foldl max first.2 - first.2 + 1 := by
  have sorted := arrivals_sorted ordered seen
  have report := transportLossReport_eq ordered seen reach sorted
  have bounds := lost_le_expected fun advance (member : advance ∈ recentAdvances truth atUs) =>
    advance_bounds (List.mem_filter.mp member).1
  have expected := toNat_ofInt (le_trans bounds.1 bounds.2) fits
  have lost := toNat_ofInt bounds.1 (lt_of_le_of_lt bounds.2 fits)
  rw [report]
  refine ⟨expected, lost, ?_, ?_⟩
  · rintro before late earlier after rfl member le others inOrder without
    have same : recentAdvances (before ++ after) atUs = recentAdvances (before ++ late :: after) atUs := by
      rw [recentAdvances, recentAdvances, advances_of_late member le]
    rw [transportLossReport_eq inOrder without (withinReach_of_late member le reach)
      (arrivals_sorted inOrder without), same]
  · rintro first rest rfl recent
    rw [expected, recentAdvances_of_first sorted recent, advances, List.map_cons, List.sum_cons,
      sum_advances_some]
    exact add_comm _ _

/-- Numbers that wrap with a gap, a late packet, a repeated one, and an advance that is trimmed. -/
def wrappedCalls : List EstimatorCall :=
  [.rtpReceived 0 65534 0 100, .snapshot 500000, .rtpReceived 1000000 1 3000 100, .rtpReceived 1000100 65535 0 100,
    .rtcp 1000150 28, .rtpReceived 1000200 1 3000 100, .transportLossReport 2200000,
    .rtpReceived 2500000 2 6000 100]

def wrappedTruth : List (ℤ × ℤ) :=
  [(0, 65534), (1000000, 65537), (1000100, 65535), (1000200, 65537), (2500000, 65538)]

theorem transportLossReport_exact_wrapped :
    (((estimatorAfter wrappedCalls).transportLossReport 2600000).2.1.toNat : ℤ) = 4 ∧
      (((estimatorAfter wrappedCalls).transportLossReport 2600000).2.2.toNat : ℤ) = 2 := by
  have exact := @transportLossReport_exact wrappedCalls wrappedTruth 2600000 (by decide) (by decide) (by decide)
    (by decide)
  exact ⟨exact.1, exact.2.1⟩

end WeakNetVideo
