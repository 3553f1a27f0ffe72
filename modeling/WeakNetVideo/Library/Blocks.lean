import Mathlib.Algebra.BigOperators.Group.List.Basic
import Mathlib.Algebra.GroupWithZero.Nat
import Mathlib.Data.List.Flatten
import Mathlib.Data.List.Pairwise

/-! # Blocks of an increasing sequence

A sequence of numbers is reported in blocks, each under its first number and a count that is kept with a
modulus. Put behind each other, the reports are all numbers from the first to the last one exactly when
every block starts where the one before it ends and no count has wrapped around.
-/

/-- Some numbers, at least one. -/
structure Block where
  numbers : List ℕ
  nonempty : numbers ≠ []
deriving DecidableEq

namespace Block

def first (block : Block) : ℕ := block.numbers.head block.nonempty

def last (block : Block) : ℕ := block.numbers.getLast block.nonempty

/-- How many numbers there are from the first to the last. -/
def span (block : Block) : ℕ := block.last + 1 - block.first

/-- The span as a counter of some modulus shows it. -/
def counted (modulus : ℕ) (block : Block) : ℕ := block.span % modulus

/-- The numbers that the first one and the counter tell of. -/
def reported (modulus : ℕ) (block : Block) : List ℕ := List.range' block.first (block.counted modulus)

/-- Each block lies behind the one before it. -/
def Ordered : Option ℕ → List Block → Prop
  | _, [] => True
  | before, block :: blocks =>
    (∀ last ∈ before, last < block.first) ∧ block.first ≤ block.last ∧ Ordered (some block.last) blocks

/-- Each block starts where the one before it ends, and no counter wraps. -/
def Seamless (modulus : ℕ) : Option ℕ → List Block → Prop
  | _, [] => True
  | before, block :: blocks =>
    (∀ last ∈ before, block.first = last + 1) ∧ block.span < modulus ∧
      Seamless modulus (some block.last) blocks

/-- The last number of some blocks. -/
def lastOf : Block → List Block → ℕ
  | block, [] => block.last
  | _, block :: blocks => lastOf block blocks

/-- All numbers from the first of some blocks to the last. -/
def hull : List Block → List ℕ
  | [] => []
  | block :: blocks => List.range' block.first (lastOf block blocks + 1 - block.first)

variable {modulus : ℕ} {block : Block} {blocks : List Block}

/-! ## Pieces of increasing numbers -/

variable {numbers : List ℕ} {number : ℕ}

theorem first_mem (block : Block) : block.first ∈ block.numbers := List.head_mem block.nonempty

theorem last_mem (block : Block) : block.last ∈ block.numbers := List.getLast_mem block.nonempty

theorem first_le (increasing : block.numbers.Pairwise (· < ·)) (member : number ∈ block.numbers) :
    block.first ≤ number :=
  (increasing.imp Nat.le_of_lt).rel_head member

theorem le_last (increasing : block.numbers.Pairwise (· < ·)) (member : number ∈ block.numbers) :
    number ≤ block.last :=
  (increasing.imp Nat.le_of_lt).rel_getLast member

theorem first_le_last (increasing : block.numbers.Pairwise (· < ·)) : block.first ≤ block.last :=
  first_le increasing block.last_mem

/-- What lies between the ends of a piece lies in the piece. -/
theorem mem_of_between (increasing : numbers.Pairwise (· < ·)) (piece : block.numbers <:+: numbers)
    (member : number ∈ numbers) (lower : block.first ≤ number) (upper : number ≤ block.last) :
    number ∈ block.numbers := by
  obtain ⟨before, after, rfl⟩ := piece
  obtain ⟨front, _, behind⟩ := List.pairwise_append.mp increasing
  obtain ⟨_, _, across⟩ := List.pairwise_append.mp front
  rcases List.mem_append.mp member with inside | later
  · rcases List.mem_append.mp inside with earlier | own
    · have := across number earlier block.first block.first_mem
      omega
    · exact own
  · have := behind block.last (List.mem_append_right _ block.last_mem) number later
    omega

/-! ## Counters -/

theorem counted_le (modulus : ℕ) (block : Block) : block.counted modulus ≤ block.span :=
  Nat.mod_le ..

theorem counted_eq_iff (positive : 0 < modulus) : block.counted modulus = block.span ↔ block.span < modulus :=
  Nat.mod_eq_iff_lt (Nat.pos_iff_ne_zero.mp positive)

theorem counted_of_lt (narrow : block.span < modulus) : block.counted modulus = block.span :=
  Nat.mod_eq_of_lt narrow

theorem last_le_lastOf (increasing : block.first ≤ block.last) (ordered : Ordered (some block.last) blocks) :
    block.last ≤ lastOf block blocks := by
  induction blocks generalizing block with
  | nil => exact Nat.le_refl _
  | cons next blocks ih =>
    obtain ⟨behind, own, ordered⟩ := ordered
    have later : next.last ≤ lastOf next blocks := ih own ordered
    have before : block.last < next.first := behind _ rfl
    calc block.last ≤ next.last := by omega
      _ ≤ lastOf next blocks := later

/-- The counters never show more than the hull holds, and show all of it just when nothing is left out
and none has wrapped. -/
private theorem counted_sum (positive : 0 < modulus) (increasing : block.first ≤ block.last)
    (ordered : Ordered (some block.last) blocks) :
    ((block :: blocks).map (counted modulus)).sum ≤ lastOf block blocks + 1 - block.first ∧
      (((block :: blocks).map (counted modulus)).sum = lastOf block blocks + 1 - block.first ↔
        block.span < modulus ∧ Seamless modulus (some block.last) blocks) := by
  induction blocks generalizing block with
  | nil =>
    simp only [List.map_cons, List.map_nil, List.sum_cons, List.sum_nil, Nat.add_zero, lastOf, Seamless, and_true]
    exact ⟨counted_le .., counted_eq_iff positive⟩
  | cons next blocks ih =>
    obtain ⟨behind, own, ordered⟩ := ordered
    obtain ⟨bound, full⟩ := ih own ordered
    have before : block.last < next.first := behind _ rfl
    have later := last_le_lastOf own ordered
    have counted := counted_le modulus block
    have narrow : block.counted modulus = block.span ↔ block.span < modulus := counted_eq_iff positive
    have span : block.span = block.last + 1 - block.first := rfl
    rw [List.map_cons, List.sum_cons, lastOf]
    refine ⟨by omega, ?_⟩
    simp only [Seamless, Option.mem_def, Option.some.injEq, forall_eq']
    rw [← full, ← narrow]
    omega

/-- Seamless blocks are those whose counters add up to the hull. -/
theorem seamless_iff_sum (positive : 0 < modulus) (ordered : Ordered none blocks) :
    Seamless modulus none blocks ↔ (blocks.map (counted modulus)).sum = (hull blocks).length := by
  cases blocks with
  | nil => simp [Seamless, hull]
  | cons block blocks =>
    obtain ⟨_, own, ordered⟩ := ordered
    rw [hull, List.length_range', (counted_sum positive own ordered).2]
    simp [Seamless]

theorem narrow_of_seamless {before : Option ℕ} (seamless : Seamless modulus before blocks) :
    ∀ block ∈ blocks, block.span < modulus := by
  induction blocks generalizing before with
  | nil => exact fun _ none => absurd none List.not_mem_nil
  | cons block blocks ih =>
    intro other member
    rcases List.mem_cons.mp member with rfl | later
    · exact seamless.2.1
    · exact ih seamless.2.2 other later

private theorem reported_of_seamless_cons (increasing : block.first ≤ block.last)
    (ordered : Ordered (some block.last) blocks) (narrow : block.span < modulus)
    (seamless : Seamless modulus (some block.last) blocks) :
    (block :: blocks).flatMap (reported modulus) =
      List.range' block.first (lastOf block blocks + 1 - block.first) := by
  induction blocks generalizing block with
  | nil => simp [reported, counted_of_lt narrow, lastOf, span]
  | cons next blocks ih =>
    obtain ⟨behind, own, ordered⟩ := ordered
    obtain ⟨joined, narrow', seamless⟩ := seamless
    have start : next.first = block.first + block.span := by
      rw [joined _ rfl, span]
      omega
    have later := last_le_lastOf own ordered
    rw [List.flatMap_cons, ih own ordered narrow' seamless, reported, counted_of_lt narrow, lastOf, start,
      List.range'_append_1]
    congr 1
    omega

/-- Seamless blocks report the hull, number by number. -/
theorem reported_of_seamless (ordered : Ordered none blocks) (seamless : Seamless modulus none blocks) :
    blocks.flatMap (reported modulus) = hull blocks := by
  cases blocks with
  | nil => rfl
  | cons block blocks => exact reported_of_seamless_cons ordered.2.1 ordered.2.2 seamless.2.1 seamless.2.2

end Block
