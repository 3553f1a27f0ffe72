import Mathlib.Data.List.Nodup
import Mathlib.Data.List.Perm.Basic

/-! # Settings of which the last one counts

A list of keys with values. Of the values of a key the last one counts, so where no key comes twice the order of the
list does not matter. Keys and values are arbitrary types.
-/

namespace Settings

variable {κ α : Type*} [DecidableEq κ] {key : κ} {value : α} {settings others : List (κ × α)}

/-- The value that counts for a key. -/
def last (key : κ) : List (κ × α) → Option α
  | [] => none
  | setting :: settings => (last key settings).or (if setting.1 = key then some setting.2 else none)

@[simp] theorem last_nil : last key ([] : List (κ × α)) = none := rfl

theorem last_cons (setting : κ × α) :
    last key (setting :: settings) = (last key settings).or (if setting.1 = key then some setting.2 else none) := rfl

/-- The value that counts is one of the list. -/
theorem mem_of_last (counts : last key settings = some value) : (key, value) ∈ settings := by
  induction settings with
  | nil => contradiction
  | cons setting settings ih =>
    rw [last_cons] at counts
    cases later : last key settings with
    | some other =>
      rw [later, Option.some_or] at counts
      exact List.mem_cons_of_mem _ (ih (later.trans counts))
    | none =>
      rw [later, Option.none_or] at counts
      split_ifs at counts with own
      obtain rfl := Option.some.inj counts
      subst own
      exact List.mem_cons_self

theorem last_eq_none (absent : key ∉ settings.map Prod.fst) : last key settings = none := by
  cases counts : last key settings with
  | none => rfl
  | some value => exact absurd (List.mem_map_of_mem (mem_of_last counts)) absent

/-- Where no key comes twice, every value counts. -/
theorem last_of_mem (once : (settings.map Prod.fst).Nodup) (member : (key, value) ∈ settings) :
    last key settings = some value := by
  induction settings with
  | nil => contradiction
  | cons setting settings ih =>
    rw [List.map_cons, List.nodup_cons] at once
    rw [last_cons]
    rcases List.mem_cons.mp member with rfl | later
    · rw [last_eq_none once.1, Option.none_or, if_pos rfl]
    · rw [ih once.2 later, Option.some_or]

/-- Then the order does not matter. -/
theorem last_of_perm (once : (settings.map Prod.fst).Nodup) (perm : others.Perm settings) :
    last key others = last key settings := by
  cases counts : last key settings with
  | some value =>
    apply last_of_mem
    · exact ((perm.map Prod.fst).nodup_iff).mpr once
    · exact perm.mem_iff.mpr (mem_of_last counts)
  | none =>
    apply last_eq_none
    intro present
    obtain ⟨⟨_, value⟩, member, rfl⟩ := List.mem_map.mp present
    have there := last_of_mem once (perm.mem_iff.mp member)
    exact absurd (counts.symm.trans there) (Option.some_ne_none _).symm

end Settings
