import Mathlib.Algebra.Order.Monoid.Defs
import Mathlib.Algebra.Order.Monoid.Unbundled.Pow
import Mathlib.Data.List.Chain
import Mathlib.Order.Lattice

/-! # Events that keep their distance

Times of which each is at least a gap behind the one before it. Such times cannot crowd: in a window there is at
most one for every gap that the window has room for.
-/

/-- Every time is at least a gap behind the one before it. -/
def Spaced {τ : Type*} [Add τ] [LE τ] (gap : τ) (times : List τ) : Prop :=
  times.IsChain fun earlier later => earlier + gap ≤ later

namespace Spaced

section

variable {τ : Type*} [Add τ] [LE τ] {gap time : τ} {times : List τ}

theorem nil (gap : τ) : Spaced gap [] := List.IsChain.nil

/-- A time may be added when the last one is far enough behind. -/
theorem concat (spaced : Spaced gap times) (behind : ∀ last ∈ times.getLast?, last + gap ≤ time) :
    Spaced gap (times ++ [time]) := by
  apply List.isChain_append.mpr
  refine ⟨spaced, List.IsChain.singleton time, fun last member next here => ?_⟩
  obtain rfl := Option.some.inj here
  exact behind last member

end

variable {τ : Type*} [AddCommMonoid τ] [LinearOrder τ] [IsOrderedAddMonoid τ] {gap first low width : τ}
  {times : List τ}

/-- Some of the times keep their distance too. -/
theorem sublist {fewer : List τ} (spaced : Spaced gap times) (positive : 0 ≤ gap) (part : fewer.Sublist times) :
    Spaced gap fewer := by
  have trans : IsTrans τ fun earlier later => earlier + gap ≤ later :=
    ⟨fun _ middle _ first second => le_trans first (le_trans (le_add_of_nonneg_right positive) second)⟩
  exact List.IsChain.sublist spaced part

/-- The span of the times. -/
theorem span_le (spaced : Spaced gap (first :: times)) :
    ∃ last ∈ first :: times, first + times.length • gap ≤ last := by
  induction times generalizing first with
  | nil => exact ⟨first, List.mem_singleton.mpr rfl, by simp⟩
  | cons next times ih =>
    obtain ⟨step, rest⟩ := List.isChain_cons_cons.mp spaced
    obtain ⟨last, member, span⟩ := ih rest
    refine ⟨last, List.mem_cons_of_mem _ member, le_trans ?_ span⟩
    rw [List.length_cons, succ_nsmul', ← add_assoc]
    exact add_le_add_left step _

/-- A window of so many gaps has no more times. -/
theorem length_le (spaced : Spaced gap times) (positive : 0 ≤ gap) {n : ℕ} (fits : width ≤ n • gap)
    (inside : ∀ time ∈ times, low ≤ time ∧ time < low + width) : times.length ≤ n := by
  cases times with
  | nil => exact Nat.zero_le n
  | cons first times =>
    obtain ⟨last, member, span⟩ := spaced.span_le
    by_contra many
    have enough : n ≤ times.length := Nat.le_of_lt_succ (Nat.lt_of_not_le many)
    have below : last < low + width := (inside last member).2
    have above : low + width ≤ last := by
      calc low + width ≤ first + n • gap := add_le_add (inside first (List.mem_cons_self ..)).1 fits
        _ ≤ first + times.length • gap := add_le_add_right (nsmul_le_nsmul_left positive enough) _
        _ ≤ last := span
    exact absurd below (not_lt.mpr above)

/-- Of any times, a window of so many gaps has no more. -/
theorem length_filter_le (spaced : Spaced gap times) (positive : 0 ≤ gap) (low : τ) (n : ℕ) :
    (times.filter fun time => decide (low ≤ time ∧ time < low + n • gap)).length ≤ n := by
  apply (spaced.sublist positive List.filter_sublist).length_le positive le_rfl
  intro time member
  exact of_decide_eq_true (List.mem_filter.mp member).2

end Spaced
