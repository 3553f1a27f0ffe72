import WeakNetVideo.Model.TwccFeedback
import Mathlib.Data.Nat.Bitwise

/-! # Status chunks

A chunk that the encoder writes is read as a run, of the status and the length it was written with. Over
all chunks of a message the loop of the decoder counts what the runs spell.
-/

namespace WeakNetVideo

open BigEndian

/-- The status stands above the thirteen bits of the run. -/
private theorem toNat_statusChunk (received : Bool) {run : ℕ} (fits : run < 2 ^ 13) :
    (statusChunk (received, run)).toNat = 2 ^ 13 * received.toNat + run := by
  have small : run % 2 ^ 16 = run := Nat.mod_eq_of_lt (by omega)
  have status : ((if received then 1 else 0 : UInt16) <<< 13).toNat = received.toNat <<< 13 := by
    cases received <;> rfl
  rw [statusChunk, UInt16.toNat_or, UInt16.toNat_ofNat', small, status, ← Nat.shiftLeft_add_eq_or_of_lt fits,
    Nat.shiftLeft_eq, Nat.mul_comm]

variable {received : Bool} {run : ℕ}

theorem statusChunk_run (fits : run ≤ maxStatusRun) :
    (statusChunk (received, run) &&& 0x1fff).toNat = run := by
  have small : run < 2 ^ 13 := Nat.lt_of_le_of_lt fits (by decide)
  rw [UInt16.toNat_and, toNat_statusChunk received small, show (0x1fff : UInt16).toNat = 2 ^ 13 - 1 from rfl,
    Nat.and_two_pow_sub_one_eq_mod, Nat.mul_add_mod, Nat.mod_eq_of_lt small]

theorem statusChunk_status (fits : run ≤ maxStatusRun) :
    (statusChunk (received, run) >>> 13) &&& 0x03 = if received then 1 else 0 := by
  have small : run < 2 ^ 13 := Nat.lt_of_le_of_lt fits (by decide)
  apply UInt16.toNat_inj.mp
  rw [UInt16.toNat_and, UInt16.toNat_shiftRight, toNat_statusChunk received small,
    show (0x03 : UInt16).toNat = 2 ^ 2 - 1 from rfl, Nat.and_two_pow_sub_one_eq_mod,
    show (13 : UInt16).toNat % 16 = 13 from rfl, Nat.shiftRight_eq_div_pow, Nat.mul_add_div (by decide),
    Nat.div_eq_of_lt small]
  cases received <;> rfl

/-- The bit that marks a vector of symbols is clear. -/
theorem statusChunk_not_vector (fits : run ≤ maxStatusRun) :
    statusChunk (received, run) &&& 0x8000 = 0 := by
  have small : run < 2 ^ 13 := Nat.lt_of_le_of_lt fits (by decide)
  have below : (statusChunk (received, run)).toNat < 2 ^ 15 := by
    rw [toNat_statusChunk received small]
    have := received.toNat_le
    omega
  apply UInt16.toNat_inj.mp
  rw [UInt16.toNat_and, show (0x8000 : UInt16).toNat = 2 ^ 15 from rfl, Nat.and_two_pow,
    Nat.testBit_lt_two_pow below]
  rfl

/-- The chunks of some statuses tell these statuses. -/
theorem chunkStatuses_runs (statuses : List Bool) :
    ((RunLength.runs maxStatusRun statuses).map statusChunk).flatMap chunkStatuses = statuses := by
  have each : ∀ run ∈ RunLength.runs maxStatusRun statuses,
      chunkStatuses (statusChunk run) = List.replicate run.2 run.1 := by
    rintro ⟨received, run⟩ member
    have fits := RunLength.le_limit (by decide) statuses _ member
    rw [chunkStatuses, statusChunk_run fits, statusChunk_status fits]
    cases received <;> rfl
  rw [List.flatMap_map]
  exact (List.flatMap_congr each).trans (RunLength.expand_runs maxStatusRun statuses)

/-! ## The decoder -/

/-- A chunk for no more packets than remain is added whole. -/
private theorem chunk_statusChunk (parse : TwccParse) {statusCount : UInt16} (fits : run ≤ maxStatusRun)
    (room : run ≤ (statusCount - parse.parsedPackets).toNat) :
    parse.chunk (statusChunk (received, run)) statusCount =
      parse.add (if received then 1 else 0) (UInt16.ofNat run) := by
  have length : statusChunk (received, run) &&& 0x1fff = UInt16.ofNat run := by
    rw [← UInt16.ofNat_toNat (x := statusChunk (received, run) &&& 0x1fff), statusChunk_run fits]
  have small : run < 65536 := Nat.lt_of_le_of_lt fits (by decide)
  have least : min (UInt16.ofNat run) (statusCount - parse.parsedPackets) = UInt16.ofNat run := by
    apply if_pos
    rwa [UInt16.le_iff_toNat_le, UInt16.toNat_ofNat', Nat.mod_eq_of_lt small]
  rw [TwccParse.chunk, if_pos (statusChunk_not_vector fits), statusChunk_status fits, length, least]

/-- A turn of the loop adds the run of a chunk that stands at the cursor. -/
private theorem observeChunks_statusChunk {packet : RtcpPacket} {statusCount : UInt16} {parse : TwccParse}
    (before next : List Byte) (fuel : ℕ) (start : packet.start = 0) (cursor : parse.cursor = before.length)
    (inside : parse.cursor + 2 ≤ packet.size) (positive : 0 < run) (fits : run ≤ maxStatusRun)
    (room : parse.parsedPackets.toNat + run ≤ statusCount.toNat) :
    observeChunks (before ++ (bytesU16 (statusChunk (received, run)) ++ next)) packet statusCount (fuel + 1) parse =
      observeChunks (before ++ (bytesU16 (statusChunk (received, run)) ++ next)) packet statusCount fuel
        (TwccParse.add { parse with
          cursor := parse.cursor + 2, reads := parse.reads ++ [⟨packet.start + parse.cursor, 2⟩] }
          (if received then 1 else 0) (UInt16.ofNat run)) := by
  have more : parse.parsedPackets < statusCount := UInt16.lt_iff_toNat_lt.mpr (by omega)
  have left : (statusCount - parse.parsedPackets).toNat = statusCount.toNat - parse.parsedPackets.toNat :=
    UInt16.toNat_sub_of_le _ _ (UInt16.le_of_lt more)
  have word : readU16 (before ++ (bytesU16 (statusChunk (received, run)) ++ next)) (packet.start + parse.cursor) =
      statusChunk (received, run) := by
    rw [start, cursor, Nat.zero_add]
    exact readU16_append before next _ _ rfl
  rw [observeChunks, if_pos ⟨more, inside⟩]
  simp only [word]
  rw [chunk_statusChunk _ fits (by simp only [left]; omega)]

/-- The loop over the chunks of some runs counts the symbols that the runs spell. -/
theorem observeChunks_runs {packet : RtcpPacket} {statusCount : UInt16} {runs : List (Bool × ℕ)}
    (after : List Byte) (start : packet.start = 0)
    (bounds : ∀ run ∈ runs, 0 < run.2 ∧ run.2 ≤ maxStatusRun) {fuel : ℕ} (turns : runs.length ≤ fuel)
    (before : List Byte) (parse : TwccParse) (cursor : parse.cursor = before.length)
    (inside : parse.cursor + 2 * runs.length ≤ packet.size)
    (total : parse.parsedPackets.toNat + (RunLength.expand runs).length = statusCount.toNat) :
    let parsed := observeChunks (before ++ ((runs.map statusChunk).flatMap bytesU16 ++ after)) packet
      statusCount fuel parse
    parsed.lostPackets = parse.lostPackets + UInt32.ofNat ((RunLength.expand runs).count false) ∧
      parsed.receivedPackets =
        parse.receivedPackets + UInt32.ofNat ((RunLength.expand runs).count true) := by
  induction runs generalizing fuel before parse with
  | nil =>
    have stop : ¬ parse.parsedPackets < statusCount := by
      simp only [RunLength.expand, List.flatMap_nil, List.length_nil] at total
      rw [UInt16.lt_iff_toNat_lt]
      omega
    cases fuel <;> simp [observeChunks, stop, RunLength.expand]
  | cons chunk runs ih =>
    obtain ⟨received, run⟩ := chunk
    obtain ⟨positive, fits⟩ := bounds (received, run) List.mem_cons_self
    have bounds' := fun other member => bounds other (List.mem_cons_of_mem _ member)
    have small : run < 65536 := Nat.lt_of_le_of_lt fits (by decide)
    simp only [RunLength.expand_cons, List.length_append, List.length_replicate, List.length_cons]
      at total inside turns positive
    obtain ⟨fuel, rfl⟩ : ∃ left, fuel = left + 1 := ⟨fuel - 1, by omega⟩
    have bound := statusCount.toNat_lt
    rw [List.map_cons, List.flatMap_cons, List.append_assoc, observeChunks_statusChunk before _ fuel start cursor
      (by omega) positive fits (by omega), ← List.append_assoc before]
    have turns' : runs.length ≤ fuel := by omega
    have parsed : (parse.parsedPackets + UInt16.ofNat run).toNat = parse.parsedPackets.toNat + run := by
      rw [UInt16.toNat_add, UInt16.toNat_ofNat', Nat.mod_eq_of_lt small, Nat.mod_eq_of_lt (by omega)]
    obtain ⟨lost, arrived⟩ := ih bounds' turns' (before ++ bytesU16 (statusChunk (received, run)))
      (TwccParse.add { parse with
        cursor := parse.cursor + 2, reads := parse.reads ++ [⟨packet.start + parse.cursor, 2⟩] }
        (if received then 1 else 0) (UInt16.ofNat run))
      (by simp [TwccParse.add, cursor]) (by simp only [TwccParse.add]; omega)
      (by simp only [TwccParse.add, parsed]; omega)
    have wide : (UInt16.ofNat run).toUInt32 = UInt32.ofNat run := by
      apply UInt32.toNat_inj.mp
      rw [UInt16.toNat_toUInt32, UInt16.toNat_ofNat', UInt32.toNat_ofNat', Nat.mod_eq_of_lt small,
        Nat.mod_eq_of_lt (by omega)]
    dsimp only
    rw [lost, arrived, RunLength.expand_cons]
    cases received <;>
      simp [TwccParse.add, wide, List.count_replicate, UInt32.ofNat_add, UInt32.add_assoc]

end WeakNetVideo
