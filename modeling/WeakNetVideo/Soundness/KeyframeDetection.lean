import WeakNetVideo.Library.AnnexB
import WeakNetVideo.Model.CheckedWalkers

/-! # Keyframes are found

The receiver looks for a keyframe in the bytes of a frame, without a parser: at every offset it tries both forms
of a start code. That finds the headers of the units of the frame and no others, and stays within the frame.
-/

namespace WeakNetVideo

open Bounded

variable {frame : List Byte} {i : ℕ}

/-! ## The headers that are looked at -/

/-- A code of four bytes ends in one of three, which is found as well at the next offset. -/
private theorem containsH264Idr_headers (frame : List Byte) :
    containsH264Idr frame = true ↔ ∃ header ∈ AnnexB.headers frame, header &&& 0x1f = 5 := by
  simp only [containsH264Idr, List.any_eq_true, List.mem_range, Option.any_eq_true, decide_eq_true_eq,
    AnnexB.mem_headers]
  constructor
  · rintro ⟨i, inside, place, header, idr⟩
    rw [nalHeaderAt] at header
    split_ifs at header with three four
    · obtain rfl := Option.some.inj header
      exact ⟨_, ⟨i, by omega, three.1, three.2.1, three.2.2, rfl⟩, idr⟩
    · obtain rfl := Option.some.inj header
      obtain ⟨longer, -, second, third, last⟩ := four
      exact ⟨_, ⟨i + 1, by omega, second, third, last, rfl⟩, idr⟩
  · rintro ⟨_, ⟨i, inside, first, second, third, rfl⟩, idr⟩
    exact ⟨i, by omega, i + 3, if_pos ⟨first, second, third⟩, idr⟩

/-! ## Bounds -/

namespace Checked

private theorem standsAt_singleton {offset : ℕ} (inside : offset < frame.length) (expected : Byte) :
    standsAt frame offset [expected] = .ok (decide (frame.getD offset 0 = expected)) := by
  rw [standsAt, byteAt_eq inside, ok_bind]
  split_ifs with same
  · rw [decide_eq_true same]
    rfl
  · rw [decide_eq_false same]
    rfl

private theorem standsAt_cons {offset : ℕ} {code : List Byte} {Stands : Prop} [Decidable Stands]
    (inside : offset < frame.length) (expected : Byte)
    (rest : standsAt frame (offset + 1) code = .ok (decide Stands)) :
    standsAt frame offset (expected :: code) = .ok (decide (frame.getD offset 0 = expected ∧ Stands)) := by
  rw [standsAt, byteAt_eq inside, ok_bind]
  split_ifs with same
  · rw [rest, decide_eq_decide.mpr (and_iff_right same)]
  · rw [decide_eq_false fun both => same both.1]
    rfl

private theorem nalHeaderAt_eq (inside : i + 4 < frame.length) :
    nalHeaderAt frame i = .ok (WeakNetVideo.nalHeaderAt frame i) := by
  have three : standsAt frame i [0, 0, 1] =
      .ok (decide (frame.getD i 0 = 0 ∧ frame.getD (i + 1) 0 = 0 ∧ frame.getD (i + 2) 0 = 1)) :=
    standsAt_cons (by omega) 0 (standsAt_cons (by omega) 0 (standsAt_singleton (by omega) 1))
  have four : standsAt frame i [0, 0, 0, 1] = .ok (decide (frame.getD i 0 = 0 ∧ frame.getD (i + 1) 0 = 0 ∧
      frame.getD (i + 2) 0 = 0 ∧ frame.getD (i + 3) 0 = 1)) :=
    standsAt_cons (by omega) 0 (standsAt_cons (by omega) 0
      (standsAt_cons (by omega) 0 (standsAt_singleton (by omega) 1)))
  simp only [nalHeaderAt, WeakNetVideo.nalHeaderAt, three, four, ok_bind, decide_eq_true_eq]
  by_cases longer : i + 5 < frame.length
  · simp only [longer, if_true, true_and]
    split_ifs <;> rfl
  · simp only [longer, false_and, if_false]
    split_ifs <;> rfl

/-- A turn leaves the loop at the header of a keyframe, and goes on to the next byte elsewhere. -/
private theorem idrTurn_eq (inside : i + 4 < frame.length) :
    idrTurn frame i false = .ok
      (if (WeakNetVideo.nalHeaderAt frame i).any fun header => frame.getD header 0 &&& 0x1f = 5 then .stop true
        else .next (i + 1) false) := by
  rw [idrTurn, nalHeaderAt_eq inside, ok_bind]
  cases found : WeakNetVideo.nalHeaderAt frame i with
  | none => rfl
  | some header =>
    have within : header < frame.length := by
      rw [WeakNetVideo.nalHeaderAt] at found
      split_ifs at found with three four
      · cases found
        omega
      · cases found
        omega
    simp only [byteAt_eq within, ok_bind, Option.any_some, decide_eq_true_eq]
    split_ifs <;> rfl

private theorem loop_idrTurn {left : ℕ} (all : frame.length - 4 - i = left) :
    loop frame.length 5 (idrTurn frame) i false = .ok ((List.range' i left).any fun i =>
      (WeakNetVideo.nalHeaderAt frame i).any fun header => frame.getD header 0 &&& 0x1f = 5) := by
  induction left generalizing i with
  | zero => exact loop_of_behind (by omega)
  | succ left ih =>
    have turn := idrTurn_eq (by omega : i + 4 < frame.length)
    rw [List.range'_succ, List.any_cons]
    split_ifs at turn with idr
    · rw [idr, Bool.true_or]
      exact loop_of_stop (by omega) turn
    · rw [Bool.eq_false_of_not_eq_true idr, Bool.false_or, loop_of_next (by omega) turn (Nat.lt_succ_self i)]
      exact ih (by omega)

private theorem containsH264Idr_eq (frame : List Byte) :
    containsH264Idr frame = .ok (WeakNetVideo.containsH264Idr frame) := by
  rw [containsH264Idr, loop_idrTurn rfl, WeakNetVideo.containsH264Idr, List.range_eq_range', Nat.sub_zero]

end Checked

/-- A byte stream contains a keyframe exactly if one of its units is a slice of one, whatever the forms of its
start codes; and no byte string leads to an access outside of it. -/
theorem containsH264Idr_stream :
    (∀ units : List (AnnexB.StartCode × AnnexB.NalUnit),
      containsH264Idr (AnnexB.stream units) = true ↔ ∃ unit ∈ units, unit.2.type = 5) ∧
    ∀ frame, Checked.containsH264Idr frame = .ok (containsH264Idr frame) := by
  refine ⟨fun units => ?_, Checked.containsH264Idr_eq⟩
  simp only [containsH264Idr_headers, AnnexB.headers_stream, List.mem_map, exists_exists_and_eq_and]
  rfl

/-- The last unit is a header and one more byte, behind the shorter code. -/
example : containsH264Idr (AnnexB.stream [
    (.four, ⟨[0x67, 0x42, 0, 0, 3, 1], by decide, by decide, by decide, by decide⟩),
    (.three, ⟨[0x65, 0x88], by decide, by decide, by decide, by decide⟩)]) = true := by decide

end WeakNetVideo
