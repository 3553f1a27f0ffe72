import Mathlib.Data.Nat.Notation

/-! # Loops with a measure

A loop without a bound of its own takes turns until one of them returns. Where every turn that goes on lowers a
measure, as many turns as the measure says are enough, and the loop is its first turn followed by the loop.
-/

/-- A loop: one turn, with what it returns if it does, and a measure of the turns that are left. -/
structure Loop (State Result : Type*) where
  turn : State → State × Option Result
  measure : State → ℕ
  lowers : ∀ s, (turn s).2 = none → measure (turn s).1 < measure s

namespace Loop

variable {State Result : Type*} (L : Loop State Result)

/-- At most so many turns. -/
def runFor : ℕ → State → Option (State × Result)
  | 0, _ => none
  | turns + 1, s =>
    match (L.turn s).2 with
    | some result => some ((L.turn s).1, result)
    | none => runFor turns (L.turn s).1

/-- As many turns as the measure says. -/
def run (s : State) : Option (State × Result) := L.runFor (L.measure s + 1) s

private theorem runFor_isSome {turns : ℕ} {s : State} (enough : L.measure s < turns) : (L.runFor turns s).isSome := by
  induction turns generalizing s with
  | zero => exact absurd enough (Nat.not_lt_zero _)
  | succ turns ih =>
    rw [runFor]
    cases returns : (L.turn s).2 with
    | some result => rfl
    | none => exact ih (Nat.lt_of_lt_of_le (L.lowers s returns) (Nat.le_of_lt_succ enough))

/-- More turns than enough change nothing. -/
private theorem runFor_eq {turns more : ℕ} {s : State} (enough : L.measure s < turns) (enough' : L.measure s < more) :
    L.runFor turns s = L.runFor more s := by
  induction turns generalizing more s with
  | zero => exact absurd enough (Nat.not_lt_zero _)
  | succ turns ih =>
    obtain ⟨more, rfl⟩ := Nat.exists_eq_succ_of_ne_zero (Nat.ne_of_gt (Nat.lt_of_le_of_lt (Nat.zero_le _) enough'))
    rw [runFor, runFor]
    cases returns : (L.turn s).2 with
    | some result => rfl
    | none =>
      have lower := L.lowers s returns
      exact ih (Nat.lt_of_lt_of_le lower (Nat.le_of_lt_succ enough))
        (Nat.lt_of_lt_of_le lower (Nat.le_of_lt_succ enough'))

/-- The loop returns. -/
theorem run_isSome (s : State) : (L.run s).isSome := L.runFor_isSome (Nat.lt_succ_self _)

variable {L} {s : State}

/-- A turn that returns ends the loop. -/
theorem run_of_some {result : Result} (returns : (L.turn s).2 = some result) :
    L.run s = some ((L.turn s).1, result) := by
  rw [run, runFor, returns]

/-- A turn that goes on is followed by the loop. -/
theorem run_of_none (goesOn : (L.turn s).2 = none) : L.run s = L.run (L.turn s).1 := by
  rw [run, runFor, goesOn]
  exact L.runFor_eq (L.lowers s goesOn) (Nat.lt_succ_self _)

variable (L)

/-- What the loop leaves and returns. -/
def result (s : State) : State × Result := (L.run s).get (L.run_isSome s)

variable {L}

theorem result_of_some {result : Result} (returns : (L.turn s).2 = some result) :
    L.result s = ((L.turn s).1, result) := by
  simp only [Loop.result, run_of_some returns, Option.get_some]

theorem result_of_none (goesOn : (L.turn s).2 = none) : L.result s = L.result (L.turn s).1 := by
  simp only [Loop.result, run_of_none goesOn]

/-- What every turn that goes on keeps holds in front of the turn that returns. -/
theorem result_of_kept {P : State → Prop} {Q : State → Result → Prop}
    (keeps : ∀ s, P s → (L.turn s).2 = none → P (L.turn s).1)
    (returns : ∀ s, P s → ∀ result, (L.turn s).2 = some result → Q (L.turn s).1 result)
    (start : P s) : Q (L.result s).1 (L.result s).2 := by
  induction left : L.measure s using Nat.strongRecOn generalizing s with
  | ind measured ih =>
    subst left
    cases turned : (L.turn s).2 with
    | some result =>
      rw [result_of_some turned]
      exact returns s start result turned
    | none =>
      rw [result_of_none turned]
      exact ih _ (L.lowers s turned) (keeps s start turned) rfl

end Loop
