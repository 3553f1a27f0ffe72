import Mathlib.Data.List.Basic

/-! # The items that a filter keeps

A filter numbers the items that it keeps. Two items with successive numbers are neighbours, or the second one
stands right behind an item that was not kept.
-/

namespace Kept

variable {α β : Type*} (f : α → Option β) (items : List α)

/-- How many items are kept in front of a place. -/
def rank (place : ℕ) : ℕ := ((items.take place).filterMap f).length

variable {f items} {place other : ℕ} {item : α} {kept : β}

/-- Every number is the rank of a kept item. -/
theorem exists_place {number : ℕ} (found : (items.filterMap f)[number]? = some kept) :
    ∃ place item, items[place]? = some item ∧ f item = some kept ∧ rank f items place = number := by
  induction items generalizing number with
  | nil => simp at found
  | cons first items ih =>
    cases keeps : f first with
    | none =>
      rw [List.filterMap_cons_none keeps] at found
      obtain ⟨place, item, there, keeps', same⟩ := ih found
      refine ⟨place + 1, item, there, keeps', ?_⟩
      rw [rank, List.take_succ_cons, List.filterMap_cons_none keeps, ← same, rank]
    | some first' =>
      rw [List.filterMap_cons_some keeps] at found
      cases number with
      | zero => exact ⟨0, first, rfl, keeps.trans found, rfl⟩
      | succ number =>
        obtain ⟨place, item, there, keeps', same⟩ := ih found
        refine ⟨place + 1, item, there, keeps', ?_⟩
        rw [rank, List.take_succ_cons, List.filterMap_cons_some keeps, List.length_cons, ← same, rank]

theorem rank_mono (order : place ≤ other) : rank f items place ≤ rank f items other := by
  obtain ⟨more, rfl⟩ := Nat.exists_eq_add_of_le order
  rw [rank, rank, List.take_add, List.filterMap_append, List.length_append]
  exact Nat.le_add_right _ _

theorem rank_succ (found : items[place]? = some item) :
    rank f items (place + 1) = rank f items place + (f item).toList.length := by
  obtain ⟨inside, rfl⟩ := List.getElem?_eq_some_iff.mp found
  rw [rank, rank, List.take_succ_eq_append_getElem inside, List.filterMap_append, List.length_append]
  cases keeps : f items[place] with
  | none => rw [List.filterMap_cons_none keeps]; rfl
  | some kept => rw [List.filterMap_cons_some keeps]; rfl

/-- Behind a kept item the next number is at the next place, or right behind an item that is not kept. -/
theorem next_place (found : items[place]? = some item) (keeps : f item = some kept) (inside : other < items.length)
    (next : rank f items other = rank f items place + 1) :
    other = place + 1 ∨ ∃ lost, items[other - 1]? = some lost ∧ f lost = none := by
  have here : rank f items (place + 1) = _ := rank_succ found
  rw [keeps, Option.toList_some, List.length_singleton] at here
  have behind : place < other := by
    by_contra before
    have order : rank f items other ≤ rank f items place := rank_mono (Nat.le_of_not_lt before)
    omega
  rcases Nat.eq_or_lt_of_le (Nat.succ_le_of_lt behind) with same | later
  · exact .inl same.symm
  · obtain ⟨before, rfl⟩ : ∃ before, other = before + 1 := ⟨other - 1, by omega⟩
    have fits : before < items.length := by omega
    have there : items[before]? = some items[before] := List.getElem?_eq_getElem fits
    refine .inr ⟨_, there, ?_⟩
    have last : rank f items (before + 1) = _ := rank_succ there
    have between : rank f items (place + 1) ≤ rank f items before := rank_mono (by omega)
    cases lost : f items[before] with
    | none => rfl
    | some kept' =>
      rw [lost, Option.toList_some, List.length_singleton] at last
      omega

end Kept
