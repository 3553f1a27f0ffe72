import WeakNetVideo.Proofs.TwccCoverage

/-! # Feedback without gaps

Successive feedbacks cover what the sender counted without a gap exactly when nothing is lost between
the last packet of one and the first of the next: each feedback starts at the first packet that came
behind the one before.
-/

namespace WeakNetVideo

/-- The blocks of numbers that the feedbacks of a fresh handler cover. -/
def coveredBlocks {rtc : Rtc} (calls : List (NumberedCall rtc)) : List Block :=
  reportedBlocks {} (calls.map NumberedCall.arrivals)

/-- The ranges of successive feedbacks are adjacent, every number from the first packet covered to the
last is reported once and in order, and as many are called lost as never arrived. -/
structure LeavesNoGap (feedbacks : List TwccFeedback) (blocks : List Block) (numbers : List ℕ) : Prop where
  adjacent : feedbacks.IsChain fun earlier later =>
    later.baseSequence = earlier.baseSequence + earlier.packetCount
  once : feedbacks.flatMap TwccFeedback.sequences = (Block.hull blocks).map UInt16.ofNat
  lost : (feedbacks.map TwccFeedback.lost).sum =
    (Block.hull blocks).countP fun number => number ∉ numbers

/-- What is reported goes on right behind the last number reported before, for less than a turn of the
stamped counter. -/
def GoesOn (_past : List (Option Block)) (s : Coverage) (arrivals : NumberedArrivals) : Prop :=
  ∀ block ∈ (coverageMachine.step s arrivals).2,
    (∀ last ∈ s.lastReported, block.first = last + 1) ∧ block.span < sequenceModulus

instance (past : List (Option Block)) (s : Coverage) (arrivals : NumberedArrivals) :
    Decidable (GoesOn past s arrivals) :=
  inferInstanceAs (Decidable (∀ block ∈ (coverageMachine.step s arrivals).2,
    (∀ last ∈ s.lastReported, block.first = last + 1) ∧ block.span < sequenceModulus))

variable {rtc : Rtc} {s : Coverage} {all : List NumberedArrivals} {numbers : List ℕ}
  {blocks : List Block} {feedbacks : List TwccFeedback}

theorem everywhere_goesOn_iff (past : List (Option Block)) : coverageMachine.Everywhere GoesOn past s all ↔
    Block.Seamless sequenceModulus s.lastReported (reportedBlocks s all) := by
  induction all generalizing s past with
  | nil => exact Iff.rfl
  | cons arrivals all ih =>
    rw [Transducer.everywhere_cons, ih]
    rcases coverage_step s arrivals with ⟨block, reports, _, last, _⟩ | ⟨silent, last, _⟩
    · rw [reportedBlocks_of_report reports, last]
      simp only [GoesOn, reports, Option.mem_def, Option.some.injEq, forall_eq', Block.Seamless, and_assoc]
    · rw [reportedBlocks_of_none silent, last]
      simp [GoesOn, silent]

/-! ## What the feedbacks report -/

private theorem sequences_of_reports {block : Block} {feedback : TwccFeedback}
    (reports : Reports block feedback) :
    feedback.sequences = (block.reported sequenceModulus).map UInt16.ofNat := by
  rw [TwccFeedback.sequences, reports.count, reports.base, Block.reported, List.range'_eq_map_range,
    List.map_map]
  exact List.map_congr_left fun offset _ => (UInt16.ofNat_add ..).symm

private theorem flatMap_sequences (reports : List.Forall₂ Reports blocks feedbacks) :
    feedbacks.flatMap TwccFeedback.sequences =
      (blocks.flatMap (Block.reported sequenceModulus)).map UInt16.ofNat := by
  induction reports with
  | nil => rfl
  | cons head _ ih => rw [List.flatMap_cons, List.flatMap_cons, List.map_append, ih, sequences_of_reports head]

private theorem length_reported (blocks : List Block) :
    (blocks.flatMap (Block.reported sequenceModulus)).length =
      (blocks.map (Block.counted sequenceModulus)).sum := by
  simp [List.length_flatMap, Block.reported]

/-- A narrow piece calls lost what did not arrive at all. -/
private theorem lost_of_reports {block : Block} {feedback : TwccFeedback} (reports : Reports block feedback)
    (increasing : numbers.Pairwise (· < ·)) (piece : block.numbers <:+: numbers)
    (narrow : block.span < sequenceModulus) : feedback.lost =
      (block.reported sequenceModulus).countP fun number => number ∉ numbers := by
  rw [reports.lost narrow]
  apply List.countP_congr
  intro number member
  rw [Block.reported, Block.counted_of_lt narrow, List.mem_range'_1, Block.span] at member
  have same : number ∈ block.numbers ↔ number ∈ numbers :=
    ⟨fun inside => piece.mem inside, fun inside =>
      Block.mem_of_between increasing piece inside member.1 (by omega)⟩
  simp [same]

private theorem sum_lost (reports : List.Forall₂ Reports blocks feedbacks)
    (increasing : numbers.Pairwise (· < ·)) (pieces : ∀ block ∈ blocks, block.numbers <:+: numbers)
    (narrow : ∀ block ∈ blocks, block.span < sequenceModulus) : (feedbacks.map TwccFeedback.lost).sum =
      (blocks.flatMap (Block.reported sequenceModulus)).countP fun number => number ∉ numbers := by
  induction reports with
  | nil => rfl
  | cons head _ ih =>
    rw [List.map_cons, List.sum_cons, List.flatMap_cons, List.countP_append,
      lost_of_reports head increasing (pieces _ List.mem_cons_self) (narrow _ List.mem_cons_self),
      ih (fun block member => pieces block (List.mem_cons_of_mem _ member))
        fun block member => narrow block (List.mem_cons_of_mem _ member)]

private theorem adjacent_of_seamless {before : Option ℕ} (reports : List.Forall₂ Reports blocks feedbacks)
    (seamless : Block.Seamless sequenceModulus before blocks) (ordered : Block.Ordered before blocks) :
    feedbacks.IsChain fun earlier later =>
      later.baseSequence = earlier.baseSequence + earlier.packetCount := by
  induction reports generalizing before with
  | nil => exact .nil
  | @cons block feedback _ _ head tail ih =>
    obtain ⟨_, narrow, behind⟩ := seamless
    obtain ⟨_, increasing, ordered⟩ := ordered
    have rest := ih behind ordered
    cases tail with
    | nil => exact .singleton _
    | @cons nextBlock next _ _ nextHead _ =>
      have joined : nextBlock.first = block.first + block.span := by
        rw [behind.1 _ rfl, Block.span]
        omega
      have count : feedback.packetCount = UInt16.ofNat block.span := by
        rw [← Block.counted_of_lt narrow, ← head.count, UInt16.ofNat_toNat]
      apply List.IsChain.cons_cons _ rest
      rw [nextHead.base, head.base, count, joined, UInt16.ofNat_add]

/-! ## Seams decide -/

/-- Feedback leaves no gap exactly when every feedback goes on right behind the one before. -/
theorem leavesNoGap_iff (rtc : Rtc) (calls : List (NumberedCall rtc))
    (close : List.IsChain Close (calls.flatMap NumberedCall.numbers)) :
    LeavesNoGap (sentFeedbacks rtc {} calls) (coveredBlocks calls)
        (calls.flatMap NumberedCall.numbers) ↔
      coverageMachine.Everywhere GoesOn [] {} (calls.map NumberedCall.arrivals) := by
  have increasing := increasing_of_close close
  have numbers : (calls.map NumberedCall.arrivals).flatMap NumberedArrivals.numbers =
      calls.flatMap NumberedCall.numbers := List.flatMap_map ..
  have reports : List.Forall₂ Reports (coveredBlocks calls) (sentFeedbacks rtc {} calls) :=
    @reports_run {} rtc {} calls ⟨rfl, rfl⟩ close
  have ordered : Block.Ordered none (coveredBlocks calls) :=
    @ordered_of_increasing {} _ (numbers ▸ increasing) fun _ none => absurd none (Option.not_mem_none _)
  rw [everywhere_goesOn_iff]
  constructor
  · intro leaves
    apply (Block.seamless_iff_sum (by decide) ordered).mpr
    have lengths := congrArg List.length leaves.once
    rwa [flatMap_sequences reports, List.length_map, List.length_map, length_reported] at lengths
  · intro seamless
    have told := Block.reported_of_seamless ordered seamless
    refine ⟨adjacent_of_seamless reports seamless ordered, ?_, ?_⟩
    · rw [flatMap_sequences reports, told]
    · have pieces : ∀ block ∈ coveredBlocks calls, block.numbers <:+: calls.flatMap NumberedCall.numbers :=
        numbers ▸ infix_of_reported
      rw [sum_lost reports increasing pieces (Block.narrow_of_seamless seamless), told]

/-! ## Two runs -/

/-- A packet of the demo under a number of the sender. -/
def stampedPacket (number : ℕ) : Message :=
  (writeTwccExtension .rfc5761 (UInt16.ofNat number) (Rtp.packet (UInt16.ofNat number) false [1])).1

/-- Packet 1 comes in one interval and packet 3 in the next; packet 2 is lost between them. -/
def lostBetween : List (NumberedCall .rfc5761) :=
  [⟨⟨[(250000, some (stampedPacket 1))], 250000⟩, [1], by decide +kernel⟩,
    ⟨⟨[(500000, some (stampedPacket 3))], 500000⟩, [3], by decide +kernel⟩]

/-- The lost packet between the two intervals is in neither feedback. -/
theorem lostBetween_leaves_gap :
    List.IsChain Close (lostBetween.flatMap NumberedCall.numbers) ∧
    (sentFeedbacks .rfc5761 {} lostBetween).map (fun feedback =>
      (feedback.baseSequence, feedback.packetCount, feedback.lost)) = [(1, 1, 0), (3, 1, 0)] ∧
    ¬LeavesNoGap (sentFeedbacks .rfc5761 {} lostBetween) (coveredBlocks lostBetween)
      (lostBetween.flatMap NumberedCall.numbers) := by
  refine ⟨by decide, by decide +kernel, fun leaves => ?_⟩
  exact absurd leaves.adjacent (by decide +kernel)

/-- Packet 2 is lost inside an interval. -/
def lostInside : List (NumberedCall .rfc5761) :=
  [⟨⟨[(250000, some (stampedPacket 1)), (250000, none), (251000, some (stampedPacket 3))], 251000⟩, [1, 3],
      by decide +kernel⟩,
    ⟨⟨[(500000, some (stampedPacket 4))], 500000⟩, [4], by decide +kernel⟩]

theorem leavesNoGap_iff_lostInside :
    LeavesNoGap (sentFeedbacks .rfc5761 {} lostInside) (coveredBlocks lostInside)
      (lostInside.flatMap NumberedCall.numbers) ∧
    (sentFeedbacks .rfc5761 {} lostInside).map TwccFeedback.lost = [1, 0] := by
  constructor
  · exact (leavesNoGap_iff .rfc5761 lostInside (by decide)).mpr (by decide +kernel)
  · decide +kernel

end WeakNetVideo
