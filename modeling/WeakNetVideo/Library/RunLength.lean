import Mathlib.Algebra.GroupWithZero.Nat
import Mathlib.Data.List.Count

/-! # Run-length coding with bounded runs

A list is cut from the left into runs of one symbol, none longer than a limit, and a list of runs spells
its symbols again. What a decoder counts run by run is what the list holds.
-/

namespace RunLength

variable {α : Type*} [DecidableEq α]

/-- The runs of a list behind a run that is still open. -/
def runsFrom (limit : ℕ) (symbol : α) (run : ℕ) : List α → List (α × ℕ)
  | [] => [(symbol, run)]
  | next :: rest =>
    if next = symbol ∧ run < limit then runsFrom limit symbol (run + 1) rest
    else (symbol, run) :: runsFrom limit next 1 rest

def runs (limit : ℕ) : List α → List (α × ℕ)
  | [] => []
  | symbol :: rest => runsFrom limit symbol 1 rest

/-- The symbols that runs spell. -/
def expand (runs : List (α × ℕ)) : List α :=
  runs.flatMap fun run => List.replicate run.2 run.1

private theorem expand_runsFrom (limit : ℕ) (symbol : α) (run : ℕ) (rest : List α) :
    expand (runsFrom limit symbol run rest) = List.replicate run symbol ++ rest := by
  induction rest generalizing symbol run with
  | nil => simp [runsFrom, expand]
  | cons next rest ih =>
    rw [runsFrom]
    split_ifs with more
    · rw [ih, more.1, List.replicate_succ', List.append_assoc]
      rfl
    · rw [expand, List.flatMap_cons, ← expand, ih]
      rfl

/-- Nothing is lost in the runs. -/
theorem expand_runs (limit : ℕ) (symbols : List α) : expand (runs limit symbols) = symbols := by
  cases symbols with
  | nil => rfl
  | cons symbol rest => rw [runs, expand_runsFrom]; rfl

private theorem le_limit_runsFrom {limit : ℕ} (positive : 0 < limit) (symbol : α) {run : ℕ}
    (fits : run ≤ limit) (rest : List α) : ∀ chunk ∈ runsFrom limit symbol run rest, chunk.2 ≤ limit := by
  induction rest generalizing symbol run with
  | nil =>
    intro chunk member
    obtain rfl := List.mem_singleton.mp member
    exact fits
  | cons next rest ih =>
    rw [runsFrom]
    split_ifs with more
    · exact ih symbol more.2
    · intro chunk member
      rcases List.mem_cons.mp member with rfl | later
      · exact fits
      · exact ih next positive chunk later

/-- No run is longer than the limit. -/
theorem le_limit {limit : ℕ} (positive : 0 < limit) (symbols : List α) :
    ∀ chunk ∈ runs limit symbols, chunk.2 ≤ limit := by
  cases symbols with
  | nil => exact fun _ none => absurd none List.not_mem_nil
  | cons symbol rest => exact le_limit_runsFrom positive symbol positive rest

private theorem positive_runsFrom {limit : ℕ} (symbol : α) {run : ℕ} (positive : 0 < run) (rest : List α) :
    ∀ chunk ∈ runsFrom limit symbol run rest, 0 < chunk.2 := by
  induction rest generalizing symbol run with
  | nil =>
    intro chunk member
    obtain rfl := List.mem_singleton.mp member
    exact positive
  | cons next rest ih =>
    rw [runsFrom]
    split_ifs with more
    · exact ih symbol (Nat.succ_pos run)
    · intro chunk member
      rcases List.mem_cons.mp member with rfl | later
      · exact positive
      · exact ih next Nat.one_pos chunk later

/-- No run is empty. -/
theorem positive_of_mem {limit : ℕ} (symbols : List α) : ∀ chunk ∈ runs limit symbols, 0 < chunk.2 := by
  cases symbols with
  | nil => exact fun _ none => absurd none List.not_mem_nil
  | cons symbol rest => exact positive_runsFrom symbol Nat.one_pos rest

theorem expand_cons {α : Type*} (chunk : α × ℕ) (chunks : List (α × ℕ)) :
    expand (chunk :: chunks) = List.replicate chunk.2 chunk.1 ++ expand chunks := List.flatMap_cons

/-- Runs that are not empty are no more than the symbols they spell. -/
theorem length_le_expand {α : Type*} {chunks : List (α × ℕ)} (positive : ∀ chunk ∈ chunks, 0 < chunk.2) :
    chunks.length ≤ (expand chunks).length := by
  induction chunks with
  | nil => exact Nat.le_refl _
  | cons chunk chunks ih =>
    have first := positive chunk List.mem_cons_self
    have rest := ih fun other member => positive other (List.mem_cons_of_mem _ member)
    rw [expand_cons, List.length_append, List.length_replicate, List.length_cons]
    omega

/-- A symbol occurs as often as its runs are long together. -/
theorem count_expand (symbol : α) (chunks : List (α × ℕ)) : (expand chunks).count symbol =
    (chunks.map fun chunk => if chunk.1 = symbol then chunk.2 else 0).sum := by
  induction chunks with
  | nil => rfl
  | cons chunk chunks ih =>
    rw [expand, List.flatMap_cons, ← expand, List.count_append, ih, List.count_replicate, List.map_cons,
      List.sum_cons]
    simp only [beq_iff_eq]

end RunLength
