import WeakNetVideo.Library.Blocks
import WeakNetVideo.Proofs.StatusChunks
import Mathlib.Data.List.Chain
import Mathlib.Data.List.ReduceOption
import Mathlib.Data.Option.Basic

/-! # What feedback covers

The sender counts its packets without a bound, and sixteen bits of the count are stamped. Over the
unbounded numbers the handler of the receiver is a collector of blocks; its feedbacks are the blocks of
the collector, told in sixteen bits.
-/

namespace WeakNetVideo

/-- The size of the stamped counter. -/
abbrev sequenceModulus : ℕ := 65536

/-- The numbers that wait for the next feedback, and the last number of the feedback before. -/
structure Coverage where
  lastFeedbackUs : ℤ := 0
  pending : List ℕ := []
  lastReported : Option ℕ := none
deriving DecidableEq

/-- The numbers that come in with one call. -/
structure NumberedArrivals where
  numbers : List ℕ
  atUs : ℤ
deriving DecidableEq

def Coverage.take (s : Coverage) (numbers : List ℕ) : Coverage :=
  { s with pending := numbers.foldl (pushLatest maxTwccSamples) s.pending }

/-- The block of the pending numbers is reported when the interval is over and its count fits. -/
def Coverage.report (s : Coverage) (atUs : ℤ) : Coverage × Option Block :=
  if nonempty : s.pending = [] then (s, none)
  else if atUs - s.lastFeedbackUs < twccFeedbackIntervalUs then (s, none)
  else
    let block : Block := ⟨s.pending, nonempty⟩
    let cleared := { s with lastFeedbackUs := atUs, pending := [] }
    if block.counted sequenceModulus = 0 ∨ block.counted sequenceModulus > maxTwccPackets.toNat then
      (cleared, none)
    else ({ cleared with lastReported := some block.last }, some block)

def coverageMachine : Transducer Coverage NumberedArrivals (Option Block) where
  step s arrivals := (s.take arrivals.numbers).report arrivals.atUs

/-- The blocks that a run reports. -/
def reportedBlocks (s : Coverage) (arrivals : List NumberedArrivals) : List Block :=
  (coverageMachine.outputs s arrivals).reduceOption

/-- The next number that arrives is a later one, with fewer than 4096 lost between. -/
def Close (number next : ℕ) : Prop := number < next ∧ next ≤ number + 4096

instance (number next : ℕ) : Decidable (Close number next) :=
  inferInstanceAs (Decidable (number < next ∧ next ≤ number + 4096))

/-- One `incoming` call with the numbers that the sender counted its stamped packets under. -/
structure NumberedCall (rtc : Rtc) where
  call : TwccCall
  numbers : List ℕ
  carries : (call.arrivals.filterMap fun arrival => readTwccSequence rtc arrival.2) =
    numbers.map UInt16.ofNat

def NumberedCall.arrivals {rtc : Rtc} (call : NumberedCall rtc) : NumberedArrivals :=
  ⟨call.numbers, call.call.atUs⟩

/-- The feedbacks that a run sends. -/
def sentFeedbacks (rtc : Rtc) (r : TwccReceiver) (calls : List (NumberedCall rtc)) : List TwccFeedback :=
  ((twccMachine rtc).outputs r (calls.map NumberedCall.call)).reduceOption

variable {s : Coverage} {arrivals : NumberedArrivals} {all : List NumberedArrivals} {numbers : List ℕ}
  {block : Block}

/-! ## The collector -/

theorem pushLatest_suffix {α : Type*} (limit : ℕ) (queue items : List α) :
    items.foldl (pushLatest limit) queue <:+ queue ++ items := by
  induction items generalizing queue with
  | nil => rw [List.append_nil]; exact List.suffix_refl _
  | cons item items ih =>
    obtain ⟨dropped, split⟩ : pushLatest limit queue item <:+ queue ++ [item] := List.drop_suffix _ _
    refine (ih (pushLatest limit queue item)).trans ⟨dropped, ?_⟩
    rw [← List.append_assoc, split, List.append_assoc, List.singleton_append]

/-- What a step of the collector can do. -/
theorem coverage_step (s : Coverage) (arrivals : NumberedArrivals) :
    (∃ block, (coverageMachine.step s arrivals).2 = some block ∧
      block.numbers <:+ s.pending ++ arrivals.numbers ∧
      (coverageMachine.step s arrivals).1.lastReported = some block.last ∧
      (coverageMachine.step s arrivals).1.pending = []) ∨
    ((coverageMachine.step s arrivals).2 = none ∧
      (coverageMachine.step s arrivals).1.lastReported = s.lastReported ∧
      (coverageMachine.step s arrivals).1.pending <:+ s.pending ++ arrivals.numbers) := by
  have taken := pushLatest_suffix maxTwccSamples s.pending arrivals.numbers
  simp only [coverageMachine, Coverage.report]
  split_ifs with empty early wide
  · exact .inr ⟨rfl, rfl, taken⟩
  · exact .inr ⟨rfl, rfl, taken⟩
  · exact .inr ⟨rfl, rfl, List.nil_suffix⟩
  · exact .inl ⟨_, rfl, taken, rfl, rfl⟩

/-- The next step finds a suffix of what there was. -/
private theorem pending_suffix (s : Coverage) (arrivals : NumberedArrivals) :
    (coverageMachine.step s arrivals).1.pending <:+ s.pending ++ arrivals.numbers := by
  rcases coverage_step s arrivals with ⟨_, _, _, _, empty⟩ | ⟨_, _, kept⟩
  · rw [empty]
    exact List.nil_suffix
  · exact kept

private theorem pending_later_suffix (s : Coverage) (arrivals : NumberedArrivals) (later : List ℕ) :
    (coverageMachine.step s arrivals).1.pending ++ later <:+
      s.pending ++ (arrivals.numbers ++ later) := by
  obtain ⟨dropped, split⟩ := pending_suffix s arrivals
  exact ⟨dropped, by rw [← List.append_assoc, split, List.append_assoc]⟩

/-- When the numbers arrive in close order, every call finds its own in close order. -/
theorem everywhere_close (past : List (Option Block))
    (close : List.IsChain Close (s.pending ++ all.flatMap NumberedArrivals.numbers)) :
    coverageMachine.Everywhere (fun _ s arrivals => List.IsChain Close (s.pending ++ arrivals.numbers))
      past s all := by
  induction all generalizing s past with
  | nil => trivial
  | cons arrivals all ih =>
    rw [List.flatMap_cons] at close
    constructor
    · rw [← List.append_assoc] at close
      exact close.left_of_append
    · exact ih _ (close.suffix (pending_later_suffix s arrivals _))

theorem reportedBlocks_of_report (reports : (coverageMachine.step s arrivals).2 = some block) :
    reportedBlocks s (arrivals :: all) =
      block :: reportedBlocks (coverageMachine.step s arrivals).1 all := by
  rw [reportedBlocks, Transducer.outputs_cons, reports, List.reduceOption_cons_of_some]
  rfl

theorem reportedBlocks_of_none (silent : (coverageMachine.step s arrivals).2 = none) :
    reportedBlocks s (arrivals :: all) = reportedBlocks (coverageMachine.step s arrivals).1 all := by
  rw [reportedBlocks, Transducer.outputs_cons, silent, List.reduceOption_cons_of_none]
  rfl

/-- Every block that is reported is a piece of the numbers that arrive. -/
theorem infix_of_reported : ∀ block ∈ reportedBlocks s all,
    block.numbers <:+: s.pending ++ all.flatMap NumberedArrivals.numbers := by
  induction all generalizing s with
  | nil => exact fun _ none => absurd none List.not_mem_nil
  | cons arrivals all ih =>
    have later (block : Block) (member : block ∈ reportedBlocks (coverageMachine.step s arrivals).1 all) :
        block.numbers <:+: s.pending ++ (arrivals :: all).flatMap NumberedArrivals.numbers :=
      (ih block member).trans (pending_later_suffix s arrivals _).isInfix
    rcases coverage_step s arrivals with ⟨block, reports, own, _⟩ | ⟨silent, _⟩
    · rw [reportedBlocks_of_report reports]
      rintro other member
      rcases List.mem_cons.mp member with rfl | member
      · rw [List.flatMap_cons, ← List.append_assoc]
        exact own.isInfix.trans (List.prefix_append _ _).isInfix
      · exact later other member
    · rw [reportedBlocks_of_none silent]
      exact later

theorem increasing_of_close (close : List.IsChain Close numbers) : numbers.Pairwise (· < ·) :=
  List.isChain_iff_pairwise.mp (close.imp fun _ _ step => step.1)

/-- The blocks of increasing numbers lie behind each other. -/
theorem ordered_of_increasing
    (increasing : (s.pending ++ all.flatMap NumberedArrivals.numbers).Pairwise (· < ·))
    (behind : ∀ last ∈ s.lastReported, ∀ number ∈ s.pending ++ all.flatMap NumberedArrivals.numbers,
      last < number) : Block.Ordered s.lastReported (reportedBlocks s all) := by
  induction all generalizing s with
  | nil => trivial
  | cons arrivals all ih =>
    rw [List.flatMap_cons] at increasing behind
    have later := pending_later_suffix s arrivals (all.flatMap NumberedArrivals.numbers)
    rcases coverage_step s arrivals with ⟨block, reports, own, last, empty⟩ | ⟨silent, last, _⟩
    · rw [reportedBlocks_of_report reports]
      rw [← List.append_assoc] at increasing behind
      obtain ⟨present, _, future⟩ := List.pairwise_append.mp increasing
      have sorted : block.numbers.Pairwise (· < ·) := present.sublist own.sublist
      refine ⟨fun before same => ?_, Block.first_le_last sorted, last ▸ ih ?_ ?_⟩
      · exact behind before same _ (List.mem_append_left _ (own.mem block.first_mem))
      · rw [empty]
        exact (List.pairwise_append.mp increasing).2.1
      · rw [last, empty]
        intro before same number member
        obtain rfl := Option.some.inj same
        exact future _ (own.mem block.last_mem) number member
    · rw [reportedBlocks_of_none silent, ← last]
      apply ih (increasing.sublist later.sublist)
      rw [last]
      exact fun before same number member => behind before same number (later.mem member)

/-! ## The handler and the collector -/

/-- The handler holds the stamps of the collector's numbers. -/
structure HoldsStamps (s : Coverage) (r : TwccReceiver) : Prop where
  clock : r.lastFeedbackUs = s.lastFeedbackUs
  pending : r.pending.map TwccSample.sequence = s.pending.map UInt16.ofNat

/-- A feedback tells of a block: where it starts, what its counter shows, and how many of the numbers
told are not in it. -/
structure Reports (block : Block) (feedback : TwccFeedback) : Prop where
  base : feedback.baseSequence = UInt16.ofNat block.first
  count : feedback.packetCount.toNat = block.counted sequenceModulus
  lost : block.span < sequenceModulus → feedback.lost =
    (block.reported sequenceModulus).countP fun number => number ∉ block.numbers

variable {rtc : Rtc} {r : TwccReceiver}

theorem map_pushLatest {α β : Type*} (f : α → β) (limit : ℕ) (queue items : List α) :
    (items.foldl (pushLatest limit) queue).map f =
      (items.map f).foldl (pushLatest limit) (queue.map f) := by
  induction items generalizing queue with
  | nil => rfl
  | cons item items ih =>
    have step : (pushLatest limit queue item).map f = pushLatest limit (queue.map f) (f item) := by
      simp [pushLatest]
    rw [List.foldl_cons, ih, step]
    rfl

/-- Observing messages queues the stamps they carry. -/
theorem observe_all (rtc : Rtc) (r : TwccReceiver) (messages : List (ℤ × MessagePtr)) :
    (messages.foldl (fun r arrival => r.observeTwccExtension rtc arrival.1 arrival.2) r).lastFeedbackUs =
        r.lastFeedbackUs ∧
      (messages.foldl (fun r arrival => r.observeTwccExtension rtc arrival.1 arrival.2) r).pending.map
          TwccSample.sequence =
        (messages.filterMap fun arrival => readTwccSequence rtc arrival.2).foldl
          (pushLatest maxTwccSamples) (r.pending.map TwccSample.sequence) := by
  induction messages generalizing r with
  | nil => exact ⟨rfl, rfl⟩
  | cons arrival messages ih =>
    obtain ⟨clock, pending⟩ := ih (r.observeTwccExtension rtc arrival.1 arrival.2)
    rw [List.foldl_cons, clock, pending]
    cases stamp : readTwccSequence rtc arrival.2 with
    | none =>
      simp only [TwccReceiver.observeTwccExtension, stamp, List.filterMap_cons, and_self]
    | some sequence =>
      simp only [TwccReceiver.observeTwccExtension, stamp, List.filterMap_cons, List.foldl_cons, true_and]
      simp [pushLatest]

/-! ## Sixteen bits -/

private theorem toNat_sub_stamp {number next : ℕ} (lower : number ≤ next) :
    (UInt16.ofNat next - UInt16.ofNat number).toNat = (next - number) % 65536 := by
  rw [← UInt16.ofNat_sub lower, UInt16.toNat_ofNat']

/-- The signed difference takes a number for newer when it is less than half the numbers ahead. -/
theorem newerSequence_eq (latest sequence : UInt16) : newerSequence latest sequence =
    if 0 < (sequence - latest).toNat ∧ (sequence - latest).toNat < 32768 then sequence else latest := by
  rw [newerSequence]
  apply if_congr _ rfl rfl
  generalize sequence - latest = difference
  have bound := difference.toNat_lt
  have value : difference.toInt16.toInt = if 2 * difference.toNat < 2 ^ 16 then (difference.toNat : ℤ)
      else (difference.toNat : ℤ) - (2 ^ 16 : ℕ) := BitVec.toInt_eq_toNat_cond difference.toBitVec
  rw [Int16.lt_iff_toInt_lt, value, show (0 : Int16).toInt = 0 from rfl]
  split_ifs <;> omega

private theorem newerSequence_of_le {number next : ℕ} (lower : number ≤ next)
    (upper : next ≤ number + 4096) :
    newerSequence (UInt16.ofNat number) (UInt16.ofNat next) = UInt16.ofNat next := by
  rcases Nat.eq_or_lt_of_le lower with rfl | later
  · exact ite_self _
  rw [newerSequence_eq, toNat_sub_stamp lower]
  exact if_pos ⟨by omega, by omega⟩

private theorem maxSequence_of_close {number : ℕ} {numbers : List ℕ}
    (close : List.IsChain Close (number :: numbers)) :
    (numbers.map UInt16.ofNat).foldl newerSequence (UInt16.ofNat number) =
      UInt16.ofNat ((number :: numbers).getLast (List.cons_ne_nil _ _)) := by
  induction numbers generalizing number with
  | nil => rfl
  | cons next numbers ih =>
    obtain ⟨step, close⟩ := List.isChain_cons_cons.mp close
    rw [List.map_cons, List.foldl_cons, newerSequence_of_le (Nat.le_of_lt step.1) step.2, ih close,
      List.getLast_cons_cons]

private theorem toNat_span {first last : ℕ} (increasing : first ≤ last) :
    (UInt16.ofNat last - UInt16.ofNat first + 1).toNat = (last + 1 - first) % sequenceModulus := by
  rw [← UInt16.ofNat_sub increasing, show (1 : UInt16) = UInt16.ofNat 1 from rfl, ← UInt16.ofNat_add,
    UInt16.toNat_ofNat']
  congr 1
  omega

private theorem stamp_injective {left right : ℕ} (close : left < right + 65536)
    (close' : right < left + 65536) (same : UInt16.ofNat left = UInt16.ofNat right) :
    left = right := by
  have := congrArg UInt16.toNat same
  simp only [UInt16.toNat_ofNat'] at this
  omega

private theorem chunkLost_statusChunk (received : Bool) {run : ℕ} (fits : run ≤ maxStatusRun) :
    chunkLost (statusChunk (received, run)) = if received = false then run else 0 := by
  rw [chunkLost, statusChunk_run fits, statusChunk_status fits]
  cases received <;> rfl

private theorem lost_of_runs (statuses : List Bool) :
    (((RunLength.runs maxStatusRun statuses).map statusChunk).map chunkLost).sum = statuses.count false := by
  have each : ∀ run ∈ RunLength.runs maxStatusRun statuses,
      chunkLost (statusChunk run) = if run.1 = false then run.2 else 0 := fun run member =>
    chunkLost_statusChunk run.1 (RunLength.le_limit (by decide) statuses run member)
  rw [List.map_map, show List.map (chunkLost ∘ statusChunk) (RunLength.runs maxStatusRun statuses) = _ from
    List.map_congr_left each, ← RunLength.count_expand, RunLength.expand_runs]

/-- In a narrow block the stamps tell the numbers apart. -/
private theorem receivedStatuses_of_narrow {count : UInt16} (increasing : block.numbers.Pairwise (· < ·))
    (narrow : block.span < sequenceModulus) (same : count.toNat = block.counted sequenceModulus) :
    receivedStatuses (block.numbers.map UInt16.ofNat) (UInt16.ofNat block.first) count =
      (block.reported sequenceModulus).map fun number => decide (number ∈ block.numbers) := by
  rw [receivedStatuses, same, Block.reported, List.range'_eq_map_range, List.map_map]
  apply List.map_congr_left
  intro offset inside
  apply decide_eq_decide.mpr
  rw [List.mem_range, Block.counted_of_lt narrow] at inside
  rw [← UInt16.ofNat_add, List.mem_map]
  constructor
  · rintro ⟨number, member, stamp⟩
    have lower := Block.first_le increasing member
    have upper := Block.le_last increasing member
    simp only [Block.span, sequenceModulus] at narrow inside
    obtain rfl := stamp_injective (by omega) (by omega) stamp
    exact member
  · exact fun member => ⟨_, member, rfl⟩

/-! ## Steps -/

/-- The handler finds the ends of the block that waits. -/
private theorem ends_of_close {front : TwccSample} {rest : List TwccSample}
    (stamps : (front :: rest).map TwccSample.sequence = block.numbers.map UInt16.ofNat)
    (close : List.IsChain Close block.numbers) : front.sequence = UInt16.ofNat block.first ∧
      (maxSequence front.sequence (front :: rest) - front.sequence + 1).toNat =
        block.counted sequenceModulus := by
  have increasing := Block.first_le_last (increasing_of_close close)
  obtain ⟨numbers, nonempty⟩ := block
  cases numbers with
  | nil => contradiction
  | cons number numbers =>
    obtain ⟨base, others⟩ := List.cons.inj stamps
    have newest : maxSequence front.sequence (front :: rest) =
        UInt16.ofNat ((number :: numbers).getLast nonempty) := by
      rw [maxSequence, ← List.foldl_map, stamps, base, List.map_cons, List.foldl_cons,
        newerSequence_of_le (Nat.le_refl _) (Nat.le_add_right ..), maxSequence_of_close close]
    refine ⟨base, ?_⟩
    rw [newest, base]
    exact toNat_span increasing

private theorem holdsStamps_report (holds : HoldsStamps s r) (close : List.IsChain Close s.pending)
    (atUs : ℤ) :
    HoldsStamps (s.report atUs).1 (r.maybeSendTwccFeedback atUs).1 ∧
      Option.Rel Reports (s.report atUs).2 (r.maybeSendTwccFeedback atUs).2 := by
  obtain ⟨clock, pending⟩ := holds
  cases queue : r.pending with
  | nil =>
    have empty : s.pending = [] := by simpa [queue] using pending.symm
    rw [TwccReceiver.maybeSendTwccFeedback, queue, Coverage.report, dif_pos empty]
    exact ⟨⟨clock, pending⟩, .none⟩
  | cons front rest =>
    have nonempty : s.pending ≠ [] := by
      rintro empty
      simp [queue, empty] at pending
    obtain ⟨base, count⟩ := @ends_of_close ⟨s.pending, nonempty⟩ front rest (queue ▸ pending) close
    have fits : (maxSequence front.sequence (front :: rest) - front.sequence + 1 = 0 ∨
        maxSequence front.sequence (front :: rest) - front.sequence + 1 > maxTwccPackets) ↔
        (Block.counted sequenceModulus ⟨s.pending, nonempty⟩ = 0 ∨
          Block.counted sequenceModulus ⟨s.pending, nonempty⟩ > maxTwccPackets.toNat) := by
      rw [← count, ← UInt16.toNat_inj, gt_iff_lt, UInt16.lt_iff_toNat_lt]
      rfl
    simp only [TwccReceiver.maybeSendTwccFeedback, queue, Coverage.report, dif_neg nonempty, clock, fits]
    split_ifs with early wide
    · exact ⟨⟨clock, pending⟩, .none⟩
    · exact ⟨⟨rfl, rfl⟩, .none⟩
    · refine ⟨⟨rfl, rfl⟩, .some ⟨base, count, fun narrow => ?_⟩⟩
      rw [TwccFeedback.lost, lost_of_runs, ← queue, pending, base,
        receivedStatuses_of_narrow (increasing_of_close close) narrow (queue ▸ base ▸ count), List.count,
        List.countP_map]
      apply List.countP_congr
      intro number _
      simp

theorem holdsStamps_incoming (holds : HoldsStamps s r) (call : NumberedCall rtc)
    (close : List.IsChain Close (s.pending ++ call.numbers)) :
    HoldsStamps (coverageMachine.step s call.arrivals).1 ((twccMachine rtc).step r call.call).1 ∧
      Option.Rel Reports (coverageMachine.step s call.arrivals).2
        ((twccMachine rtc).step r call.call).2 := by
  obtain ⟨clock, pending⟩ := observe_all rtc r call.call.arrivals
  apply holdsStamps_report
  · refine ⟨clock.trans holds.clock, ?_⟩
    rw [pending, call.carries, holds.pending, ← map_pushLatest]
    rfl
  · exact close.suffix (pushLatest_suffix maxTwccSamples s.pending call.numbers)

private theorem forall₂_reduceOption {α β : Type*} {Q : α → β → Prop} {left : List (Option α)}
    {right : List (Option β)} (same : List.Forall₂ (Option.Rel Q) left right) :
    List.Forall₂ Q left.reduceOption right.reduceOption := by
  induction same with
  | nil => exact .nil
  | cons head _ ih =>
    cases head with
    | none => exact ih
    | some related => exact .cons related ih

/-- The feedbacks of a run tell of the blocks of the collector, one of each. -/
theorem reports_run {calls : List (NumberedCall rtc)} (holds : HoldsStamps s r)
    (close : List.IsChain Close (s.pending ++ calls.flatMap NumberedCall.numbers)) :
    List.Forall₂ Reports (reportedBlocks s (calls.map NumberedCall.arrivals))
      (sentFeedbacks rtc r calls) := by
  have everywhere : coverageMachine.Everywhere
      (fun _ s arrivals => List.IsChain Close (s.pending ++ arrivals.numbers)) [] s
      (calls.map NumberedCall.arrivals) := by
    apply everywhere_close
    rw [List.flatMap_map]
    exact close
  apply forall₂_reduceOption
  exact coverageMachine.simulation (R := HoldsStamps)
    (fun _ _ _ call holds close => holdsStamps_incoming holds call close) holds everywhere

end WeakNetVideo
