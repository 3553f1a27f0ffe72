import Mathlib.Algebra.Order.Monoid.Defs
import Mathlib.Data.List.Basic
import Mathlib.Order.Lattice
import Mathlib.Order.Monotone.Basic

/-! # Picking elements against ascending marks

A pass through an ascending list takes elements one at a time, each the first that is left at or above the next
mark. No other choice that keeps to the marks has more elements, or a smaller one at any place.
-/

namespace Pacing

variable {α : Type*}

/-- Every element satisfies the condition of its place. -/
def Along (P : ℕ → α → Prop) (xs : List α) : Prop := ∀ (i : ℕ) (inside : i < xs.length), P i xs[i]

section Along

variable {P Q : ℕ → α → Prop} {x : α} {xs : List α}

@[simp] theorem along_nil : Along P [] := fun _ inside => absurd inside (Nat.not_lt_zero _)

theorem along_cons : Along P (x :: xs) ↔ P 0 x ∧ Along (fun i => P (i + 1)) xs := by
  constructor
  · exact fun all => ⟨all 0 (Nat.zero_lt_succ _), fun i inside => all (i + 1) (Nat.succ_lt_succ inside)⟩
  · rintro ⟨head, tail⟩ i inside
    cases i with
    | zero => exact head
    | succ i => exact tail i (Nat.lt_of_succ_lt_succ inside)

/-- At every cut of the list, the condition is that of the number of elements before it. -/
theorem along_iff_cut : Along P xs ↔ ∀ before x after, xs = before ++ x :: after → P before.length x := by
  constructor
  · rintro all before x after rfl
    simpa using all before.length (by simp)
  · intro cuts i inside
    have here := cuts (xs.take i) xs[i] (xs.drop (i + 1)) (by simp)
    rwa [List.length_take_of_le (le_of_lt inside)] at here

theorem along_append {ys : List α} :
    Along P (xs ++ ys) ↔ Along P xs ∧ Along (fun i => P (xs.length + i)) ys := by
  induction xs generalizing P with
  | nil => simp
  | cons x xs ih => simp only [List.cons_append, along_cons, ih, and_assoc, List.length_cons, Nat.add_right_comm]

theorem Along.take (all : Along P xs) (n : ℕ) : Along P (xs.take n) := by
  intro i inside
  rw [List.getElem_take]
  exact all i (lt_of_lt_of_le inside (List.length_take_le' n xs))

theorem Along.imp (all : Along P xs) (weaker : ∀ i, ∀ x ∈ xs, P i x → Q i x) : Along Q xs :=
  fun i inside => weaker i _ (List.getElem_mem inside) (all i inside)

theorem along_and : Along (fun i x => P i x ∧ Q i x) xs ↔ Along P xs ∧ Along Q xs := by
  constructor
  · exact fun both => ⟨fun i inside => (both i inside).1, fun i inside => (both i inside).2⟩
  · exact fun each i inside => ⟨each.1 i inside, each.2 i inside⟩

end Along

variable [LinearOrder α] {due floor deadline : ℕ → α} {xs chosen : List α}

/-- The elements that the pass takes. -/
def pick (due : ℕ → α) : List α → List α
  | [] => []
  | x :: rest => if x < due 0 then pick due rest else x :: pick (fun i => due (i + 1)) rest

/-- A choice of elements, none of them below the mark of its place. -/
structure Choice (due : ℕ → α) (xs chosen : List α) : Prop where
  sublist : chosen.Sublist xs
  above : Along (fun i x => due i ≤ x) chosen

theorem choice_pick (due : ℕ → α) (xs : List α) : Choice due xs (pick due xs) := by
  induction xs generalizing due with
  | nil => exact ⟨.slnil, along_nil⟩
  | cons x rest ih =>
    rw [pick]
    split_ifs with early
    · exact ⟨(ih due).sublist.cons x, (ih due).above⟩
    · refine ⟨(ih _).sublist.cons_cons x, along_cons.mpr ⟨not_lt.mp early, (ih _).above⟩⟩

/-- The pass stays ahead of every choice. -/
theorem pick_le (sorted : xs.Pairwise (· ≤ ·)) (choice : Choice due xs chosen) :
    Along (fun i x => ∃ taken, (pick due xs)[i]? = some taken ∧ taken ≤ x) chosen := by
  induction xs generalizing due chosen with
  | nil => rw [List.sublist_nil.mp choice.sublist]; exact along_nil
  | cons x rest ih =>
    obtain ⟨least, ascending⟩ := List.pairwise_cons.mp sorted
    rw [pick]
    split_ifs with early
    · apply ih ascending
      refine ⟨?_, choice.above⟩
      rcases List.sublist_cons_iff.mp choice.sublist with skipped | ⟨others, rfl, -⟩
      · exact skipped
      · exact absurd (along_cons.mp choice.above).1 (not_le.mpr early)
    · cases chosen with
      | nil => exact along_nil
      | cons y others =>
        rw [along_cons]
        refine ⟨⟨x, rfl, ?_⟩, ih ascending ⟨choice.sublist.of_cons_cons, (along_cons.mp choice.above).2⟩⟩
        rcases List.mem_cons.mp (choice.sublist.subset List.mem_cons_self) with rfl | later
        · exact le_refl y
        · exact least y later

/-- The same place in a choice is no earlier. -/
private theorem pick_getElem_le (sorted : xs.Pairwise (· ≤ ·)) (choice : Choice due xs chosen) {i : ℕ}
    (inside : i < (pick due xs).length) (there : i < chosen.length) : (pick due xs)[i] ≤ chosen[i] := by
  obtain ⟨taken, found, le⟩ := pick_le sorted choice i there
  rw [List.getElem?_eq_getElem inside, Option.some.injEq] at found
  exact found ▸ le

/-- The pass goes on as long as there are elements above its next mark. -/
theorem exists_mem_pick (ascending : Monotone due) {x : α} (member : x ∈ xs)
    (above : due (pick due xs).length ≤ x) : ∃ taken ∈ pick due xs, x ≤ taken := by
  induction xs generalizing due with
  | nil => contradiction
  | cons y rest ih =>
    rw [pick] at above ⊢
    split_ifs at above ⊢ with early
    · rcases List.mem_cons.mp member with rfl | later
      · exact absurd (le_trans (ascending (Nat.zero_le _)) above) (not_le.mpr early)
      · exact ih ascending later above
    · rcases List.mem_cons.mp member with rfl | later
      · exact ⟨x, List.mem_cons_self, le_refl x⟩
      · have shifted : Monotone fun i => due (i + 1) := fun _ _ le => ascending (Nat.succ_le_succ le)
        obtain ⟨taken, inside, le⟩ := ih shifted later above
        exact ⟨taken, List.mem_cons_of_mem y inside, le⟩

/-- The pass meets its deadlines exactly when for every deadline that the list goes past there are elements
that meet all of them so far, a different one each. -/
theorem pick_in_time_iff (sorted : xs.Pairwise (· ≤ ·)) (ascending : Monotone due) (later : Monotone deadline)
    (apart : ∀ i, due i ≤ deadline i) :
    Along (fun i x => x ≤ deadline i) (pick due xs) ↔
      ∀ k, (∃ x ∈ xs, deadline k < x) → ∃ chosen, chosen.Sublist xs ∧ chosen.length = k + 1 ∧
        Along (fun i x => due i ≤ x ∧ x ≤ deadline i) chosen := by
  constructor
  · rintro inTime k ⟨x, member, past⟩
    have enough : k < (pick due xs).length := by
      by_contra few
      have above : due (pick due xs).length ≤ x :=
        le_trans (le_trans (ascending (not_lt.mp few)) (apart k)) (le_of_lt past)
      obtain ⟨taken, there, le⟩ := exists_mem_pick ascending member above
      obtain ⟨i, inside, rfl⟩ := List.mem_iff_getElem.mp there
      have early := le_trans (inTime i inside) (later (le_trans (le_of_lt inside) (not_lt.mp few)))
      exact absurd (le_trans le early) (not_le.mpr past)
    have choice := choice_pick due xs
    refine ⟨(pick due xs).take (k + 1), (List.take_sublist _ _).trans choice.sublist, ?_, ?_⟩
    · exact List.length_take_of_le enough
    · exact (along_and.mpr ⟨choice.above, inTime⟩).take (k + 1)
  · intro each i inside
    by_contra late
    obtain ⟨chosen, sublist, long, windows⟩ :=
      each i ⟨_, (choice_pick due xs).sublist.subset (List.getElem_mem inside), not_le.mp late⟩
    have there : i < chosen.length := long ▸ Nat.lt_succ_self i
    have ahead := pick_getElem_le sorted ⟨sublist, (along_and.mp windows).1⟩ inside there
    exact late (le_trans ahead (windows i there).2)

/-- The pass keeps between two bounds exactly when no choice falls below the lower one and each can be bettered
by one of the same length that keeps to the upper one. -/
theorem pick_between_iff (sorted : xs.Pairwise (· ≤ ·)) :
    Along (fun i x => floor i ≤ x ∧ x ≤ deadline i) (pick due xs) ↔
      ∀ chosen, Choice due xs chosen → Along (fun i x => floor i ≤ x) chosen ∧
        ∃ better, Choice due xs better ∧ better.length = chosen.length ∧
          Along (fun i x => x ≤ deadline i) better := by
  constructor
  · intro between chosen choice
    obtain ⟨above, inTime⟩ := along_and.mp between
    have enough : chosen.length ≤ (pick due xs).length := by
      by_contra few
      obtain ⟨taken, found, -⟩ := pick_le sorted choice (pick due xs).length (not_le.mp few)
      simp at found
    have taken := choice_pick due xs
    refine ⟨fun i there => ?_, (pick due xs).take chosen.length, ?_, List.length_take_of_le enough, inTime.take _⟩
    · have inside := lt_of_lt_of_le there enough
      exact le_trans (above i inside) (pick_getElem_le sorted choice inside there)
    · exact ⟨(List.take_sublist _ _).trans taken.sublist, taken.above.take _⟩
  · intro each
    obtain ⟨above, better, choice, long, inTime⟩ := each _ (choice_pick due xs)
    refine along_and.mpr ⟨above, fun i inside => ?_⟩
    have there : i < better.length := long ▸ inside
    exact le_trans (pick_getElem_le sorted choice inside there) (inTime i there)

/-- Elements that are at most a tick apart are taken at most a tick behind marks that are a tick apart. -/
theorem pick_of_dense [AddCommMonoid α] [IsOrderedAddMonoid α] {tick previous : α}
    (steps : ∀ i, due (i + 1) = due i + tick) (start : previous ≤ due 0)
    (dense : (previous :: xs).IsChain fun x y => y ≤ x + tick) :
    Along (fun i x => x ≤ due i + tick) (pick due xs) := by
  induction xs generalizing due previous with
  | nil => exact along_nil
  | cons x rest ih =>
    obtain ⟨near, further⟩ := List.isChain_cons_cons.mp dense
    have here : x ≤ due 0 + tick := le_trans near (add_le_add_left start tick)
    rw [pick]
    split_ifs with early
    · exact ih steps (le_of_lt early) further
    · refine along_cons.mpr ⟨here, ih (fun i => steps (i + 1)) ?_ further⟩
      rw [steps 0]
      exact here

end Pacing
