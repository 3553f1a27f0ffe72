import Std.Data.ExtTreeMap
import Mathlib.Data.List.Nodup
import Mathlib.Data.List.Perm.Subperm

/-! # Ordered maps read from their least key

The extensional tree map of the standard library, with the two erasures an in-order iteration needs:
of the first entry, and of everything up to a key. Lookups after each update are stated with an
equality of keys, which is the form a proof about entries uses.
-/

/-- A finite map iterated in the order of its keys. -/
abbrev OrderedMap (α β : Type*) [Ord α] := Std.ExtTreeMap α β compare

namespace OrderedMap

open Std

/-! ## Entries and sizes -/

section Entries

variable {α β : Type*} [Ord α] [TransOrd α] {m : OrderedMap α β} {k : α} {v : β}

theorem size_erase_of_get (found : m[k]? = some v) : (m.erase k).size + 1 = m.size := by
  have member : k ∈ m := ExtTreeMap.mem_iff_isSome_getElem?.mpr (by rw [found]; rfl)
  have positive : m.size ≠ 0 := by
    intro zero
    rw [ExtTreeMap.eq_empty_iff_size_eq_zero.mpr zero] at member
    exact ExtTreeMap.not_mem_empty member
  rw [ExtTreeMap.size_erase, if_pos (ExtTreeMap.contains_iff_mem.mpr member)]
  omega

theorem size_insert_of_get (found : m[k]? = some a') : (m.insert k v).size = m.size := by
  have member : k ∈ m := ExtTreeMap.mem_iff_isSome_getElem?.mpr (by rw [found]; rfl)
  rw [ExtTreeMap.size_insert, if_pos (ExtTreeMap.contains_iff_mem.mpr member)]

theorem size_insert_of_none (absent : m[k]? = none) : (m.insert k v).size = m.size + 1 := by
  rw [ExtTreeMap.size_insert, if_neg]
  rw [ExtTreeMap.contains_iff_mem, ExtTreeMap.mem_iff_isSome_getElem?, absent]
  exact Bool.false_ne_true

end Entries

/-! ## Erasing in order -/

variable {α β : Type*} [Ord α] [TransOrd α] [LawfulEqOrd α] {m : OrderedMap α β} {k a : α} {v : β}

/-- Erase the entry of the least key, if there is one. -/
def eraseFirst (m : OrderedMap α β) : OrderedMap α β :=
  match m.toList with
  | [] => m
  | (k, _) :: _ => m.erase k

/-- Erase every entry up to a key. -/
def eraseThrough (m : OrderedMap α β) (k : α) : OrderedMap α β :=
  m.filter fun other _ => compare k other = .lt

theorem get_insert_of_ne (other : k ≠ a) : (m.insert k v)[a]? = m[a]? := by
  rw [ExtTreeMap.getElem?_insert, if_neg (by rwa [Std.compare_eq_iff_eq])]

theorem get_insertIfNew_of_ne (other : k ≠ a) : (m.insertIfNew k v)[a]? = m[a]? := by
  rw [ExtTreeMap.getElem?_insertIfNew, if_neg (by rw [Std.compare_eq_iff_eq]; exact fun h => other h.1)]

theorem get_insertIfNew_of_none (absent : m[k]? = none) : (m.insertIfNew k v)[k]? = some v := by
  rw [ExtTreeMap.getElem?_insertIfNew, if_pos]
  exact ⟨Std.compare_eq_iff_eq.mpr rfl, by
    rw [ExtTreeMap.mem_iff_isSome_getElem?, absent, Option.isSome_none]; exact Bool.false_ne_true⟩

theorem insertIfNew_of_some (present : m[k]? = some a') : m.insertIfNew k v = m := by
  apply ExtTreeMap.ext_getElem?
  intro other
  rw [ExtTreeMap.getElem?_insertIfNew, if_neg]
  rintro ⟨-, absent⟩
  exact absent (ExtTreeMap.mem_iff_isSome_getElem?.mpr (by rw [present, Option.isSome_some]))

theorem get_erase_of_ne (other : k ≠ a) : (m.erase k)[a]? = m[a]? := by
  rw [ExtTreeMap.getElem?_erase, if_neg (by rwa [Std.compare_eq_iff_eq])]

/-- What an erasure leaves was there before. -/
theorem get_of_get_erase (found : (m.erase k)[a]? = some v) : m[a]? = some v ∧ k ≠ a := by
  rw [ExtTreeMap.getElem?_erase] at found
  split_ifs at found with same
  exact ⟨found, by rwa [Std.compare_eq_iff_eq] at same⟩

theorem get_eraseThrough : (m.eraseThrough k)[a]? = m[a]?.filter fun _ => compare k a = .lt := by
  rw [eraseThrough, ExtTreeMap.getElem?_filter']

theorem get_of_get_eraseThrough (found : (m.eraseThrough k)[a]? = some v) :
    m[a]? = some v ∧ compare k a = .lt := by
  rw [get_eraseThrough, Option.filter_eq_some_iff] at found
  exact ⟨found.1, of_decide_eq_true found.2⟩

theorem get_eraseThrough_of_lt (above : compare k a = .lt) : (m.eraseThrough k)[a]? = m[a]? := by
  rw [get_eraseThrough]
  cases m[a]? with
  | none => rfl
  | some value => simp [above]

/-- What lies below a key need not be erased before. -/
theorem eraseThrough_erase (below : compare a k = .lt) : eraseThrough (m.erase a) k = eraseThrough m k := by
  apply ExtTreeMap.ext_getElem?
  intro other
  rw [get_eraseThrough, get_eraseThrough]
  by_cases here : a = other
  · subst here
    have under : compare k a ≠ .lt := by
      rw [Std.OrientedCmp.gt_of_lt below]
      exact Ordering.noConfusion
    rw [Option.filter_eq_none_iff.mpr fun _ _ => by simpa using under,
      Option.filter_eq_none_iff.mpr fun _ _ => by simpa using under]
  · rw [get_erase_of_ne here]

theorem get_of_get_eraseFirst (found : m.eraseFirst[a]? = some v) : m[a]? = some v := by
  unfold eraseFirst at found
  split at found
  · exact found
  · exact (get_of_get_erase found).1

theorem size_eraseFirst (nonempty : m.size ≠ 0) : m.eraseFirst.size + 1 = m.size := by
  unfold eraseFirst
  split
  · next empty =>
    rw [ExtTreeMap.toList_eq_nil_iff] at empty
    exact absurd (ExtTreeMap.eq_empty_iff_size_eq_zero.mp empty) nonempty
  · next first _ _ entries =>
    have present : m[first]? = some _ := ExtTreeMap.mem_toList_iff_getElem?_eq_some.mp (entries ▸ List.mem_cons_self ..)
    have member : m.contains first = true :=
      ExtTreeMap.contains_iff_mem.mpr (ExtTreeMap.mem_iff_isSome_getElem?.mpr (by rw [present]; rfl))
    rw [ExtTreeMap.size_erase, if_pos member]
    omega

/-- Writing back what is there changes nothing. -/
theorem insert_of_get (found : m[k]? = some v) : m.insert k v = m := by
  apply ExtTreeMap.ext_getElem?
  intro other
  by_cases here : k = other
  · rw [← here, ExtTreeMap.getElem?_insert_self, found]
  · rw [get_insert_of_ne here]

/-- An entry that is erased need not be written before. -/
theorem erase_insert : (m.insert k v).erase k = m.erase k := by
  apply ExtTreeMap.ext_getElem?
  intro other
  by_cases here : k = other
  · rw [← here, ExtTreeMap.getElem?_erase_self, ExtTreeMap.getElem?_erase_self]
  · rw [get_erase_of_ne here, get_erase_of_ne here, get_insert_of_ne here]

/-- Erasing a new entry again gives the old map. -/
theorem erase_insert_of_none (absent : m[k]? = none) : (m.insert k v).erase k = m := by
  apply ExtTreeMap.ext_getElem?
  intro other
  by_cases here : k = other
  · rw [← here, ExtTreeMap.getElem?_erase_self, absent]
  · rw [get_erase_of_ne here, get_insert_of_ne here]

theorem eraseThrough_insert : eraseThrough (m.insert k v) k = eraseThrough m k := by
  apply ExtTreeMap.ext_getElem?
  intro other
  rw [get_eraseThrough, get_eraseThrough]
  by_cases here : k = other
  · subst here
    rw [Option.filter_eq_none_iff.mpr fun _ _ => by simp, Option.filter_eq_none_iff.mpr fun _ _ => by simp]
  · rw [get_insert_of_ne here]

/-- The entry that `eraseFirst` erases is below all others. -/
theorem eraseFirst_eq (nonempty : m.size ≠ 0) : ∃ first value, m[first]? = some value ∧
    m.eraseFirst = m.erase first ∧
      ∀ (other : α) (entry : β), m[other]? = some entry → other ≠ first → compare first other = .lt := by
  unfold eraseFirst
  have ordered := ExtTreeMap.ordered_keys_toList (t := m)
  split
  · next empty =>
    rw [ExtTreeMap.toList_eq_nil_iff] at empty
    exact absurd (ExtTreeMap.eq_empty_iff_size_eq_zero.mp empty) nonempty
  · next first value rest entries =>
    rw [entries] at ordered
    have here : (first, value) ∈ m.toList := entries ▸ List.mem_cons_self ..
    refine ⟨first, value, ExtTreeMap.mem_toList_iff_getElem?_eq_some.mp here, rfl,
      fun other entry found different => ?_⟩
    have member := ExtTreeMap.mem_toList_iff_getElem?_eq_some.mpr found
    rw [entries] at member
    rcases List.mem_cons.mp member with same | later
    · exact absurd (Prod.mk.inj same).1 different
    · exact (List.pairwise_cons.mp ordered).1 _ later

/-- The entries ahead of one in the order of the keys are those below it. -/
theorem mem_before_iff {before rest : List (α × β)} {other : α} {entry : β}
    (split : m.toList = before ++ (k, v) :: rest) :
    (other, entry) ∈ before ↔ m[other]? = some entry ∧ compare other k = .lt := by
  have ordered := ExtTreeMap.ordered_keys_toList (t := m)
  rw [split] at ordered
  obtain ⟨-, behind, below⟩ := List.pairwise_append.mp ordered
  rw [← ExtTreeMap.mem_toList_iff_getElem?_eq_some, split, List.mem_append, List.mem_cons]
  constructor
  · exact fun member => ⟨.inl member, below _ member _ (List.mem_cons_self ..)⟩
  · rintro ⟨member | same | member, lower⟩
    · exact member
    · obtain ⟨rfl, rfl⟩ := Prod.mk.inj same
      simp at lower
    · have above : compare k other = .lt := (List.pairwise_cons.mp behind).1 _ member
      rw [Std.OrientedCmp.gt_of_lt above] at lower
      contradiction

/-- A map whose entries are all in another one is no larger. -/
theorem size_le_of_get {m' : OrderedMap α β}
    (inside : ∀ (k : α) (v : β), m'[k]? = some v → m[k]? = some v) : m'.size ≤ m.size := by
  have distinct : m'.toList.Nodup := by
    apply List.Nodup.of_map Prod.fst
    rw [ExtTreeMap.map_fst_toList_eq_keys]
    exact ExtTreeMap.nodup_keys
  have subset : m'.toList ⊆ m.toList := fun (k, v) member => by
    rw [ExtTreeMap.mem_toList_iff_getElem?_eq_some] at member ⊢
    exact inside k v member
  rw [← ExtTreeMap.length_toList, ← ExtTreeMap.length_toList]
  exact (distinct.subperm subset).length_le

/-- A map has no more entries than there are keys to choose from. -/
theorem size_le_of_keys (keys : List α)
    (inside : ∀ (k : α) (v : β), m[k]? = some v → k ∈ keys) : m.size ≤ keys.length := by
  have distinct : (m.toList.map Prod.fst).Nodup := by
    rw [ExtTreeMap.map_fst_toList_eq_keys]
    exact ExtTreeMap.nodup_keys
  have subset : m.toList.map Prod.fst ⊆ keys := by
    intro k member
    obtain ⟨⟨_, v⟩, there, rfl⟩ := List.mem_map.mp member
    exact inside _ v (ExtTreeMap.mem_toList_iff_getElem?_eq_some.mp there)
  rw [← ExtTreeMap.length_toList, ← List.length_map Prod.fst]
  exact (distinct.subperm subset).length_le

/-- A map with no entries is the empty map. -/
theorem eq_empty_of_get_none (absent : ∀ k : α, m[k]? = none) : m = ∅ :=
  ExtTreeMap.ext_getElem? fun k => by rw [absent k, ExtTreeMap.getElem?_empty]

end OrderedMap
