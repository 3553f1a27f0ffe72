import Mathlib.Data.Nat.Bitwise
import WeakNetVideo.Soundness.ReportBlocks

/-! # What a transport feedback spells

Behind its first twenty bytes a transport feedback is a sequence of words, each a run of one symbol or a
vector of symbols. Whatever the bytes are, the decoder counts the symbols that the words spell, up to the
announced number, and calls those lost that are zero.
-/

namespace WeakNetVideo

open BigEndian

/-! ## The format -/

/-- The symbols of a word: so many copies of the two bits above the length of a run, or fourteen symbols of
one bit, or seven of two bits, the first one highest. -/
def wordSymbols (word : ℕ) : List ℕ :=
  if word < 2 ^ 15 then List.replicate (word % 2 ^ 13) (word / 2 ^ 13)
  else if word % 2 ^ 15 < 2 ^ 14 then (List.range 14).map fun i => word / 2 ^ (13 - i) % 2
  else (List.range 7).map fun i => word / 2 ^ (12 - i * 2) % 4

/-- The word of an index behind the first twenty bytes of a packet. -/
def feedbackWord (memory : List Byte) (packet : RtcpPacket) (k : ℕ) : UInt16 :=
  readU16 memory (packet.start + (20 + 2 * k))

/-- The symbols of all complete words of a packet, cut to the announced number. -/
def feedbackSymbols (memory : List Byte) (packet : RtcpPacket) : List ℕ :=
  ((List.range ((packet.size - 20) / 2)).flatMap fun k =>
    wordSymbols (feedbackWord memory packet k).toNat).take (readU16 memory (packet.start + 14)).toNat

/-- What the estimator is told of lost packets. -/
def transportLossReports (observations : List RtcpObservation) : List (UInt32 × UInt32) :=
  observations.filterMap fun observation =>
    match observation.update with
    | .transportLossReport expectedPackets lostPackets => some (expectedPackets, lostPackets)
    | _ => none

/-! ## One word -/

/-- The counters tell of some symbols. -/
structure TwccParse.Counts (parse : TwccParse) (symbols : List ℕ) : Prop where
  parsed : parse.parsedPackets.toNat = symbols.length
  lost : parse.lostPackets.toNat = symbols.count 0
  received : parse.receivedPackets.toNat + symbols.count 0 = symbols.length

variable {memory : List Byte} {packet : RtcpPacket} {parse : TwccParse} {symbols : List ℕ}
  {statusCount : UInt16}

private theorem counts_add (counts : parse.Counts symbols) {status count : UInt16} {symbol : ℕ}
    (same : status = 0 ↔ symbol = 0) (room : symbols.length + count.toNat < 2 ^ 16) :
    (parse.add status count).Counts (symbols ++ List.replicate count.toNat symbol) := by
  obtain ⟨parsed, lost, received⟩ := counts
  have zeros := List.count_le_length (a := 0) (l := symbols)
  have total : (parse.parsedPackets + count).toNat = symbols.length + count.toNat := by
    rw [UInt16.toNat_add, parsed, Nat.mod_eq_of_lt room]
  have wide (counter : UInt32) (small : counter.toNat ≤ symbols.length) :
      (counter + count.toUInt32).toNat = counter.toNat + count.toNat := by
    rw [UInt32.toNat_add, UInt16.toNat_toUInt32, Nat.mod_eq_of_lt (by omega)]
  by_cases zero : symbol = 0
  · subst zero
    constructor
    · simp [TwccParse.add, total]
    · simp only [TwccParse.add, if_pos (same.mpr rfl), List.count_append, List.count_replicate_self]
      rw [wide _ (by omega), lost]
    · simp only [TwccParse.add, if_pos (same.mpr rfl), List.count_append, List.count_replicate_self,
        List.length_append, List.length_replicate]
      omega
  · have other : ¬status = 0 := fun none => zero (same.mp none)
    have none : (List.replicate count.toNat symbol).count 0 = 0 :=
      List.count_eq_zero.mpr fun member => zero (List.eq_of_mem_replicate member).symm
    constructor
    · simp [TwccParse.add, total]
    · simp only [TwccParse.add, if_neg other, List.count_append, none]
      exact lost
    · simp only [TwccParse.add, if_neg other, List.count_append, none, List.length_append,
        List.length_replicate]
      rw [wide _ (by omega)]
      omega

/-- A vector is counted symbol by symbol, as long as packets were announced. -/
private theorem counts_vector {status : ℕ → UInt16} {symbol : ℕ → ℕ} {turns : List ℕ}
    (same : ∀ i ∈ turns, status i = 0 ↔ symbol i = 0) (counts : parse.Counts symbols)
    (room : symbols.length ≤ statusCount.toNat) :
    (turns.foldl (fun parse i => if parse.parsedPackets < statusCount then parse.add (status i) 1 else parse)
      parse).Counts ((symbols ++ turns.map symbol).take statusCount.toNat) := by
  induction turns generalizing parse symbols with
  | nil =>
    rw [List.map_nil, List.append_nil, List.take_of_length_le room]
    exact counts
  | cons i turns ih =>
    have later := fun j member => same j (List.mem_cons_of_mem _ member)
    have bound := statusCount.toNat_lt
    rw [List.foldl_cons, List.map_cons]
    by_cases more : parse.parsedPackets < statusCount
    · rw [if_pos more]
      rw [UInt16.lt_iff_toNat_lt, counts.parsed] at more
      have next := counts_add counts (same i List.mem_cons_self) (show symbols.length + (1 : UInt16).toNat < _ by
        rw [UInt16.toNat_one]; omega)
      have whole := ih later next (by simp; omega)
      rwa [UInt16.toNat_one, List.replicate_one, List.append_assoc] at whole
    · rw [if_neg more]
      rw [UInt16.lt_iff_toNat_lt, counts.parsed] at more
      have whole := ih later counts room
      rw [List.take_append_of_le_length (by omega)] at whole ⊢
      exact whole

private theorem toNat_symbol (chunk : UInt16) {shift : ℕ} (inside : shift < 16) (width : ℕ) :
    (chunk >>> UInt16.ofNat shift).toNat &&& (2 ^ width - 1) = chunk.toNat / 2 ^ shift % 2 ^ width := by
  rw [UInt16.toNat_shiftRight, UInt16.toNat_ofNat', Nat.mod_eq_of_lt (by omega : shift < 2 ^ 16),
    Nat.mod_eq_of_lt inside, Nat.shiftRight_eq_div_pow, Nat.and_two_pow_sub_one_eq_mod]

private theorem statusSymbol_zero_iff (chunk : UInt16) (i : ℕ) (twoBit : Bool) :
    statusSymbol chunk twoBit i = 0 ↔
      (if twoBit then chunk.toNat / 2 ^ (12 - i * 2) % 4 else chunk.toNat / 2 ^ (13 - i) % 2) = 0 := by
  rw [← UInt16.toNat_inj]
  cases twoBit with
  | true =>
    simp only [statusSymbol, if_true]
    rw [UInt16.toNat_and, show (0x03 : UInt16).toNat = 2 ^ 2 - 1 from rfl, toNat_symbol _ (by omega)]
    rfl
  | false =>
    simp only [statusSymbol, Bool.false_eq_true, if_false]
    rw [UInt16.toNat_and, show (0x01 : UInt16).toNat = 2 ^ 1 - 1 from rfl, toNat_symbol _ (by omega)]
    rfl

private theorem bit_clear_iff (chunk : UInt16) {bit : UInt16} {i : ℕ} (power : bit.toNat = 2 ^ i) :
    chunk &&& bit = 0 ↔ chunk.toNat % 2 ^ (i + 1) < 2 ^ i := by
  have split : chunk.toNat % 2 ^ (i + 1) = 2 ^ i * (chunk.toNat / 2 ^ i % 2) + chunk.toNat % 2 ^ i := by
    rw [Nat.pow_succ, Nat.mod_mul, Nat.add_comm]
  have low : chunk.toNat % 2 ^ i < 2 ^ i := Nat.mod_lt _ (Nat.two_pow_pos i)
  rw [← UInt16.toNat_inj, UInt16.toNat_and, power, Nat.and_two_pow, Nat.testBit_eq_decide_div_mod_eq, split,
    UInt16.toNat_zero]
  rcases Nat.mod_two_eq_zero_or_one (chunk.toNat / 2 ^ i) with zero | one
  · simp [zero, low]
  · simp [one]

private theorem toNat_min (left right : UInt16) : (min left right).toNat = min left.toNat right.toNat := by
  change (if left ≤ right then left else right).toNat = _
  by_cases below : left ≤ right
  · rw [if_pos below]
    rw [UInt16.le_iff_toNat_le] at below
    omega
  · rw [if_neg below]
    rw [UInt16.le_iff_toNat_le] at below
    omega

/-- A run is clipped to the packets that remain. -/
private theorem counts_run (counts : parse.Counts symbols) (room : symbols.length ≤ statusCount.toNat)
    {chunk : UInt16} (isRun : chunk.toNat < 2 ^ 15) :
    (parse.add ((chunk >>> 13) &&& 0x03) (min (chunk &&& 0x1fff) (statusCount - parse.parsedPackets))).Counts
      ((symbols ++ List.replicate (chunk.toNat % 2 ^ 13) (chunk.toNat / 2 ^ 13)).take statusCount.toNat) := by
  have bound := statusCount.toNat_lt
  have status : ((chunk >>> 13) &&& 0x03).toNat = chunk.toNat / 2 ^ 13 := by
    rw [UInt16.toNat_and, show (0x03 : UInt16).toNat = 2 ^ 2 - 1 from rfl,
      show (13 : UInt16) = UInt16.ofNat 13 from rfl, toNat_symbol _ (by omega)]
    omega
  have length : (chunk &&& 0x1fff).toNat = chunk.toNat % 2 ^ 13 := by
    rw [UInt16.toNat_and, show (0x1fff : UInt16).toNat = 2 ^ 13 - 1 from rfl, Nat.and_two_pow_sub_one_eq_mod]
  have remaining : (statusCount - parse.parsedPackets).toNat = statusCount.toNat - symbols.length := by
    rw [UInt16.toNat_sub_of_le _ _ (by rw [UInt16.le_iff_toNat_le, counts.parsed]; exact room), counts.parsed]
  have least : (min (chunk &&& 0x1fff) (statusCount - parse.parsedPackets)).toNat =
      min (statusCount.toNat - symbols.length) (chunk.toNat % 2 ^ 13) := by
    rw [toNat_min, length, remaining, Nat.min_comm]
  rw [List.take_append, List.take_of_length_le room, List.take_replicate, ← least]
  apply counts_add counts
  · rw [← UInt16.toNat_inj, status]
    rfl
  · omega

/-- A word adds the symbols it spells, up to the announced number. -/
theorem counts_chunk (counts : parse.Counts symbols) (room : symbols.length ≤ statusCount.toNat)
    (chunk : UInt16) :
    (parse.chunk chunk statusCount).Counts ((symbols ++ wordSymbols chunk.toNat).take statusCount.toNat) := by
  have run := bit_clear_iff chunk (show (0x8000 : UInt16).toNat = 2 ^ 15 from rfl)
  have oneBit := bit_clear_iff chunk (show (0x4000 : UInt16).toNat = 2 ^ 14 from rfl)
  rw [Nat.mod_eq_of_lt chunk.toNat_lt] at run
  rw [TwccParse.chunk, wordSymbols]
  by_cases isRun : chunk.toNat < 2 ^ 15
  · rw [if_pos isRun, if_pos (run.mpr isRun)]
    exact counts_run counts room isRun
  rw [if_neg isRun, if_neg (fun clear => isRun (run.mp clear))]
  by_cases isOneBit : chunk.toNat % 2 ^ 15 < 2 ^ 14
  · have vector : ¬chunk &&& 0x4000 ≠ 0 := not_not.mpr (oneBit.mpr isOneBit)
    simp only [if_pos isOneBit, decide_eq_false vector, Bool.false_eq_true, if_false]
    exact counts_vector (fun i _ => statusSymbol_zero_iff chunk i false) counts room
  · have vector : chunk &&& 0x4000 ≠ 0 := fun clear => isOneBit (oneBit.mp clear)
    simp only [if_neg isOneBit, decide_eq_true vector, if_true]
    exact counts_vector (fun i _ => statusSymbol_zero_iff chunk i true) counts room

/-! ## All words -/

/-- The symbols of the words from an index on. -/
private def symbolsFrom (memory : List Byte) (packet : RtcpPacket) (k count : ℕ) : List ℕ :=
  (List.range' k count).flatMap fun k => wordSymbols (feedbackWord memory packet k).toNat

private theorem symbolsFrom_succ (memory : List Byte) (packet : RtcpPacket) (k count : ℕ) :
    symbolsFrom memory packet k (count + 1) =
      wordSymbols (feedbackWord memory packet k).toNat ++ symbolsFrom memory packet (k + 1) count := by
  rw [symbolsFrom, List.range'_succ, List.flatMap_cons]
  rfl

private theorem take_take_append (left right : List ℕ) (n : ℕ) :
    (left.take n ++ right).take n = (left ++ right).take n := by
  rw [List.take_append, List.take_append, List.take_take, Nat.min_self, List.length_take]
  congr 2
  omega

private theorem chunk_cursor (parse : TwccParse) (chunk statusCount : UInt16) :
    (parse.chunk chunk statusCount).cursor = parse.cursor := by
  simp only [TwccParse.chunk]
  split
  · rfl
  · generalize List.range (if (decide (chunk &&& 0x4000 ≠ 0)) = true then 7 else 14) = turns
    induction turns generalizing parse with
    | nil => rfl
    | cons i rest ih =>
      rw [List.foldl_cons, ih]
      split_ifs <;> rfl

/-- The loop over the words from an index on counts their symbols, and ends by its own condition: it is at
the end of the packet or has counted as many as were announced. -/
private theorem observeChunks_counts {fuel k count : ℕ} (counts : parse.Counts symbols)
    (room : symbols.length ≤ statusCount.toNat) (cursor : parse.cursor = 20 + 2 * k)
    (words : (packet.size - 20) / 2 = k + count) (long : 20 ≤ packet.size) (turns : count < fuel) :
    let last := observeChunks memory packet statusCount fuel parse
    last.Counts ((symbols ++ symbolsFrom memory packet k count).take statusCount.toNat) ∧
      ¬(last.parsedPackets < statusCount ∧ last.cursor + 2 ≤ packet.size) := by
  induction fuel generalizing parse symbols k count with
  | zero => omega
  | succ fuel ih =>
    simp only [observeChunks]
    by_cases more : parse.parsedPackets < statusCount ∧ parse.cursor + 2 ≤ packet.size
    · rw [if_pos more]
      obtain ⟨count, rfl⟩ : ∃ left, count = left + 1 := ⟨count - 1, by omega⟩
      have word : readU16 memory (packet.start + parse.cursor) = feedbackWord memory packet k := by
        rw [feedbackWord, cursor]
      let next : TwccParse :=
        { parse with
          cursor := parse.cursor + 2, reads := parse.reads ++ [⟨packet.start + parse.cursor, 2⟩] }
      have same : next.Counts symbols := ⟨counts.parsed, counts.lost, counts.received⟩
      have whole := @ih (next.chunk (feedbackWord memory packet k) statusCount) _ (k + 1) count
        (counts_chunk same room (feedbackWord memory packet k)) (List.length_take_le _ _)
        (by rw [chunk_cursor]; simp only [next]; omega) (by omega) (by omega)
      rw [word, symbolsFrom_succ, ← List.append_assoc]
      refine ⟨?_, whole.2⟩
      have taken := whole.1
      rwa [take_take_append] at taken
    · rw [if_neg more]
      refine ⟨?_, more⟩
      by_cases all : parse.parsedPackets < statusCount
      · have none : count = 0 := by
          have ended : ¬parse.cursor + 2 ≤ packet.size := fun inside => more ⟨all, inside⟩
          omega
        subst none
        rw [symbolsFrom, List.range'_zero, List.flatMap_nil, List.append_nil, List.take_of_length_le room]
        exact counts
      · rw [UInt16.lt_iff_toNat_lt, counts.parsed] at all
        rw [List.take_append_of_le_length (by omega), List.take_of_length_le room]
        exact counts

private theorem transportLossReports_eq (memory : List Byte) (long : 20 ≤ packet.size) :
    let last := observeChunks memory packet (readU16 memory (packet.start + 14)) packet.size {}
    transportLossReports (observeTwccFeedback memory packet) =
      if last.receivedPackets + last.lostPackets > 0 then
        [(last.receivedPackets + last.lostPackets, last.lostPackets)]
      else [] := by
  rw [observeTwccFeedback, if_neg (by omega)]
  dsimp only
  split_ifs <;> rfl

/-- Whatever the bytes of a packet of at least twenty are, the estimator is told of a transport loss exactly
when they spell a symbol, with the number of symbols and the number of zeros among them. Every byte that is
read lies in the packet, and the loop ends by its own condition. -/
theorem observeTwccFeedback_symbols (memory : List Byte) {packet : RtcpPacket} (long : 20 ≤ packet.size) :
    let symbols := feedbackSymbols memory packet
    let statusCount := readU16 memory (packet.start + 14)
    let last := observeChunks memory packet statusCount packet.size {}
    (transportLossReports (observeTwccFeedback memory packet)).map
        (fun report => (report.1.toNat, report.2.toNat)) =
      (if symbols = [] then [] else [(symbols.length, symbols.count 0)]) ∧
    (∀ observation ∈ observeTwccFeedback memory packet, observation.Inside) ∧
    (∀ range ∈ last.reads, range.Inside packet) ∧
    ¬(last.parsedPackets < statusCount ∧ last.cursor + 2 ≤ packet.size) := by
  intro symbols statusCount last
  have start : ({} : TwccParse).Counts [] := ⟨rfl, rfl, rfl⟩
  obtain ⟨counts, ended⟩ := @observeChunks_counts memory packet {} [] statusCount packet.size 0
    ((packet.size - 20) / 2) start (Nat.zero_le _) rfl (Nat.zero_add _).symm long (by omega)
  have spelled : ([] ++ symbolsFrom memory packet 0 ((packet.size - 20) / 2)).take statusCount.toNat =
      symbols := by
    rw [List.nil_append, symbolsFrom, ← List.range_eq_range']
    rfl
  rw [spelled] at counts
  refine ⟨?_, inside_observeTwccFeedback, ?_, ended⟩
  · have bound : symbols.length ≤ statusCount.toNat := List.length_take_le ..
    have small := statusCount.toNat_lt
    have zeros := List.count_le_length (a := 0) (l := symbols)
    have received := counts.received
    have expected : (last.receivedPackets + last.lostPackets).toNat = symbols.length := by
      rw [UInt32.toNat_add, counts.lost, received, Nat.mod_eq_of_lt (by omega)]
    have some_ : last.receivedPackets + last.lostPackets > 0 ↔ symbols ≠ [] := by
      rw [gt_iff_lt, UInt32.lt_iff_toNat_lt, expected, ← List.length_pos_iff]
      rfl
    rw [transportLossReports_eq memory long]
    by_cases empty : symbols = []
    · rw [if_pos empty, if_neg (fun more => some_.mp more empty)]
      rfl
    · rw [if_neg empty, if_pos (some_.mpr empty), List.map_singleton, counts.lost]
      exact congrArg (fun total => [(total, symbols.count 0)]) expected
  · exact inside_observeChunks {} fun range none => absurd none List.not_mem_nil

/-- An empty run, a run of three, and a vector of which five symbols are announced, with an odd byte behind. -/
private def mixedFeedback : List Byte :=
  Rtcp.header 15 205 6 ++ List.replicate 8 0 ++ bytesU16 7 ++ bytesU16 8 ++ [0, 0, 0, 0] ++
    bytesU16 0x2000 ++ bytesU16 0x0003 ++ bytesU16 0x9400 ++ [0xff]

theorem observeTwccFeedback_symbols_mixed :
    feedbackSymbols mixedFeedback ⟨0, 27⟩ = [0, 0, 0, 0, 1, 0, 1, 0] ∧
      (transportLossReports (observeTwccFeedback mixedFeedback ⟨0, 27⟩)).map
        (fun report => (report.1.toNat, report.2.toNat)) = [(8, 6)] := by
  have spelled : feedbackSymbols mixedFeedback ⟨0, 27⟩ = [0, 0, 0, 0, 1, 0, 1, 0] := by decide +kernel
  have whole := (@observeTwccFeedback_symbols mixedFeedback ⟨0, 27⟩ (by decide)).1
  rw [spelled] at whole
  exact ⟨spelled, whole⟩

end WeakNetVideo
