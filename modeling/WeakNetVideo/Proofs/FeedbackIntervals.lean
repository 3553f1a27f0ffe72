import WeakNetVideo.Proofs.TwccCoverage
import WeakNetVideo.Soundness.TwccCodec

/-! # Feedback intervals

Between two feedbacks the handler of the receiver collects the numbers of the packets that come in. Told over
the unbounded numbers of the sender, a feedback speaks of all numbers from the first that waits to the newest;
what came in an earlier interval is not in it. Numbers may come late, twice or never.
-/

namespace WeakNetVideo

/-- What a feedback is made of: the numbers that have arrived by then, and those of them that wait. -/
structure FeedbackInterval where
  arrived : List ℕ
  waiting : List ℕ
  nonempty : waiting ≠ []

namespace FeedbackInterval

def first (interval : FeedbackInterval) : ℕ := interval.waiting.head interval.nonempty

def newest (interval : FeedbackInterval) : ℕ := interval.waiting.max interval.nonempty

/-- The numbers that the feedback speaks of. -/
def told (interval : FeedbackInterval) : List ℕ :=
  List.range' interval.first (interval.newest + 1 - interval.first)

/-- How many of them it calls lost. -/
def missing (interval : FeedbackInterval) : ℕ := interval.told.countP fun number => number ∉ interval.waiting

/-- How many of them have not arrived. -/
def lost (interval : FeedbackInterval) : ℕ := interval.told.countP fun number => number ∉ interval.arrived

/-- The numbers that wait lie within half a turn of the stamped counter. -/
def Near (interval : FeedbackInterval) : Prop :=
  ∀ left ∈ interval.waiting, ∀ right ∈ interval.waiting, left < right + 32768

instance (interval : FeedbackInterval) : Decidable interval.Near :=
  @List.decidableBAll _ _ (fun _ => List.decidableBAll _ _) _

end FeedbackInterval

/-- The numbers that have arrived, and those that wait for the next feedback. -/
structure Collector where
  lastFeedbackUs : ℤ := 0
  arrived : List ℕ := []
  waiting : List ℕ := []
deriving DecidableEq

/-- An interval ends when something waits and the last feedback is long enough ago. -/
def Collector.step (s : Collector) (arrivals : NumberedArrivals) : Collector × Option FeedbackInterval :=
  let arrived := s.arrived ++ arrivals.numbers
  let waiting := arrivals.numbers.foldl (pushLatest maxTwccSamples) s.waiting
  if nonempty : waiting = [] then (⟨s.lastFeedbackUs, arrived, waiting⟩, none)
  else if arrivals.atUs - s.lastFeedbackUs < twccFeedbackIntervalUs then
    (⟨s.lastFeedbackUs, arrived, waiting⟩, none)
  else (⟨arrivals.atUs, arrived, []⟩, some ⟨arrived, waiting, nonempty⟩)

def collectorMachine : Transducer Collector NumberedArrivals (Option FeedbackInterval) := ⟨Collector.step⟩

/-- The intervals of a run, in their order. -/
def feedbackIntervals (all : List NumberedArrivals) : List FeedbackInterval :=
  (collectorMachine.outputs {} all).reduceOption

variable {interval : FeedbackInterval} {s : Collector} {rtc : Rtc} {r : TwccReceiver} {feedback : TwccFeedback}

/-! ## The numbers of an interval -/

namespace FeedbackInterval

theorem first_mem (interval : FeedbackInterval) : interval.first ∈ interval.waiting :=
  List.head_mem interval.nonempty

theorem newest_mem (interval : FeedbackInterval) : interval.newest ∈ interval.waiting :=
  List.max_mem interval.nonempty

theorem first_le_newest (interval : FeedbackInterval) : interval.first ≤ interval.newest :=
  List.le_max_of_mem interval.first_mem

theorem length_told (interval : FeedbackInterval) : interval.told.length = interval.newest + 1 - interval.first :=
  List.length_range'

theorem length_told_pos (interval : FeedbackInterval) : 0 < interval.told.length := by
  have ordered := interval.first_le_newest
  rw [length_told]
  omega

theorem missing_le (interval : FeedbackInterval) : interval.missing ≤ interval.told.length := List.countP_le_length

/-- What has not arrived does not wait. -/
theorem lost_le_missing (own : interval.waiting ⊆ interval.arrived) : interval.lost ≤ interval.missing := by
  refine List.countP_mono_left fun number _ missing => ?_
  simp only [decide_eq_true_eq] at missing ⊢
  exact fun waits => missing (own waits)

/-- Nothing is called lost beyond what is lost exactly when nothing told of has arrived in an earlier
interval only. -/
theorem missing_eq_lost_iff (own : interval.waiting ⊆ interval.arrived) : interval.missing = interval.lost ↔
    ∀ number ∈ interval.told, number ∈ interval.arrived → number ∈ interval.waiting := by
  have split : interval.missing = interval.lost +
      interval.told.countP fun number => number ∈ interval.arrived ∧ number ∉ interval.waiting := by
    rw [missing, lost]
    induction interval.told with
    | nil => rfl
    | cons number told ih =>
      simp only [List.countP_cons, ih]
      by_cases waits : number ∈ interval.waiting
      · simp [waits, own waits]
      · by_cases came : number ∈ interval.arrived
        · simp only [waits, came, not_true_eq_false, decide_false, Bool.false_eq_true, if_false, not_false_eq_true,
            decide_true, if_true, and_self]
          omega
        · simp only [waits, came, not_false_eq_true, decide_true, if_true, false_and, decide_false,
            Bool.false_eq_true, if_false]
          omega
  rw [split, Nat.add_eq_left, List.countP_eq_zero]
  simp

/-- Packets that come in order are all told of truly. -/
theorem missing_eq_lost_of_ordered (suffix : interval.waiting <:+ interval.arrived)
    (ordered : interval.arrived.Pairwise (· < ·)) : interval.missing = interval.lost := by
  refine (missing_eq_lost_iff suffix.subset).mpr fun number told came => ?_
  obtain ⟨before, split⟩ := suffix
  rw [← split] at came ordered
  rcases List.mem_append.mp came with earlier | own
  · have behind := (List.pairwise_append.mp ordered).2.2 number earlier _ interval.first_mem
    have least := (List.mem_range'_1.mp told).1
    omega
  · exact own

end FeedbackInterval

/-! ## The feedback of an interval -/

private theorem newerSequence_of_near {latest next : ℕ} (lower : latest < next + 32768)
    (upper : next < latest + 32768) :
    newerSequence (UInt16.ofNat latest) (UInt16.ofNat next) = UInt16.ofNat (max latest next) := by
  have difference : (UInt16.ofNat next - UInt16.ofNat latest).toNat =
      if latest ≤ next then next - latest else 65536 - (latest - next) := by
    simp only [UInt16.toNat_sub, UInt16.toNat_ofNat']
    split_ifs <;> omega
  rw [newerSequence_eq, difference]
  rcases Nat.lt_trichotomy latest next with later | same | earlier
  · rw [if_pos (Nat.le_of_lt later), if_pos ⟨by omega, by omega⟩, Nat.max_eq_right (Nat.le_of_lt later)]
  · rw [same, Nat.max_self, ite_self]
  · rw [if_neg (Nat.not_le.mpr earlier), if_neg (by omega), Nat.max_eq_left (Nat.le_of_lt earlier)]

private theorem foldl_newerSequence {numbers : List ℕ} {latest : ℕ}
    (near : ∀ left ∈ latest :: numbers, ∀ right ∈ latest :: numbers, left < right + 32768) :
    (numbers.map UInt16.ofNat).foldl newerSequence (UInt16.ofNat latest) =
      UInt16.ofNat (numbers.foldl max latest) := by
  induction numbers generalizing latest with
  | nil => rfl
  | cons next numbers ih =>
    rw [List.map_cons, List.foldl_cons, newerSequence_of_near (near _ (by simp) _ (by simp))
      (near _ (by simp) _ (by simp)), List.foldl_cons]
    have among : ∀ number ∈ max latest next :: numbers, number ∈ latest :: next :: numbers := by
      intro number member
      rcases List.mem_cons.mp member with rfl | later
      · rcases Nat.le_total latest next with le | le
        · simp [Nat.max_eq_right le]
        · simp [Nat.max_eq_left le]
      · exact List.mem_cons_of_mem _ (List.mem_cons_of_mem _ later)
    exact ih fun left member right other => near left (among left member) right (among right other)

/-- A feedback counts what its interval tells of, and misses what does not wait. -/
theorem tells_of_sent {atUs : ℤ} (holds : r.pending.map TwccSample.sequence = interval.waiting.map UInt16.ofNat)
    (near : interval.Near) (sent : (r.maybeSendTwccFeedback atUs).2 = some feedback) :
    feedback.packetCount.toNat = interval.told.length ∧ missingFrom feedback r = interval.missing := by
  have made := madeFrom_of_sent sent
  have ordered := interval.first_le_newest
  have narrow := near _ interval.newest_mem _ interval.first_mem
  have base : feedback.baseSequence = UInt16.ofNat interval.first := by
    have head := made.base
    rw [← List.head?_map, holds, List.head?_map, List.head?_eq_some_head interval.nonempty] at head
    exact (Option.some.inj head).symm
  have count : feedback.packetCount =
      maxSequence feedback.baseSequence r.pending - feedback.baseSequence + 1 := by
    rw [TwccReceiver.maybeSendTwccFeedback] at sent
    split at sent
    case h_1 => contradiction
    case h_2 =>
      dsimp only at sent
      split_ifs at sent
      obtain rfl := Option.some.inj sent
      rfl
  have newest : maxSequence feedback.baseSequence r.pending = UInt16.ofNat interval.newest := by
    have inside : ∀ number ∈ interval.first :: interval.waiting, number ∈ interval.waiting :=
      fun number member => (List.mem_cons.mp member).elim (fun same => same ▸ interval.first_mem) id
    rw [maxSequence, ← List.foldl_map, holds, base, foldl_newerSequence fun left member right other =>
      near left (inside left member) right (inside right other), List.foldl_max_eq_max interval.nonempty]
    exact congrArg UInt16.ofNat (Nat.max_eq_right ordered)
  have total : feedback.packetCount.toNat = interval.told.length := by
    rw [count, newest, base, interval.length_told]
    simp only [UInt16.toNat_add, UInt16.toNat_sub, UInt16.toNat_ofNat', show (1 : UInt16).toNat = 1 from rfl]
    omega
  refine ⟨total, ?_⟩
  rw [missingFrom, total, FeedbackInterval.missing, interval.length_told, FeedbackInterval.told,
    List.range'_eq_map_range, List.countP_map, holds, base]
  refine List.countP_congr fun offset inside => ?_
  rw [List.mem_range] at inside
  simp only [Function.comp_apply, decide_eq_true_eq, not_iff_not, ← UInt16.ofNat_add, List.mem_map]
  constructor
  · rintro ⟨number, waits, stamp⟩
    have above := near _ waits _ interval.first_mem
    have below := near _ interval.newest_mem _ waits
    have same := congrArg UInt16.toNat stamp
    simp only [UInt16.toNat_ofNat'] at same
    obtain rfl : number = interval.first + offset := by omega
    exact waits
  · exact fun waits => ⟨_, waits, rfl⟩

/-! ## The intervals of a run -/

/-- What an interval of a run is like: its numbers came last, and all have come in the run. -/
structure FeedbackInterval.Of (interval : FeedbackInterval) (all : List ℕ) : Prop where
  suffix : interval.waiting <:+ interval.arrived
  isPrefix : interval.arrived <+: all

theorem of_feedbackIntervals (all : List NumberedArrivals) :
    ∀ interval ∈ feedbackIntervals all, interval.Of (all.flatMap NumberedArrivals.numbers) := by
  have run (s : Collector) (held : s.waiting <:+ s.arrived) :
      ∀ interval ∈ (collectorMachine.outputs s all).reduceOption,
        interval.Of (s.arrived ++ all.flatMap NumberedArrivals.numbers) := by
    induction all generalizing s with
    | nil => simp [List.reduceOption]
    | cons arrivals all ih =>
      intro interval member
      have taken : arrivals.numbers.foldl (pushLatest maxTwccSamples) s.waiting <:+ s.arrived ++ arrivals.numbers := by
        refine (pushLatest_suffix maxTwccSamples s.waiting arrivals.numbers).trans ?_
        obtain ⟨before, split⟩ := held
        exact ⟨before, by rw [← List.append_assoc, split]⟩
      rw [List.flatMap_cons, ← List.append_assoc]
      have next := ih (collectorMachine.step s arrivals).1
      rw [Transducer.outputs_cons] at member
      simp only [collectorMachine, Collector.step] at member next
      split_ifs at member next with empty early
      · rw [List.reduceOption_cons_of_none] at member
        exact next taken interval member
      · rw [List.reduceOption_cons_of_none] at member
        exact next taken interval member
      · rw [List.reduceOption_cons_of_some] at member
        rcases List.mem_cons.mp member with rfl | later
        · exact ⟨taken, List.prefix_append ..⟩
        · exact next List.nil_suffix interval later
  exact run {} List.nil_suffix

end WeakNetVideo
