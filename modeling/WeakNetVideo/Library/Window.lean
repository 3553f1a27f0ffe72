import Mathlib.Data.List.DropRight
import Mathlib.Order.Lattice

/-! # Sliding windows

A queue is filled at the back, and items whose key lies below a moving cut are taken off its front. However
often it was trimmed with earlier cuts, a queue shows under a later cut what the whole history shows. Items and
keys are arbitrary types, the keys in a linear order.
-/

namespace Window

variable {α τ : Type*} [LinearOrder τ] (key : α → τ) {early late now cut : τ} {history window : List α}

/-- Take items off the front while their keys lie below a cut. -/
def trim (cut : τ) (window : List α) : List α := window.dropWhile fun item => decide (key item < cut)

theorem trim_cons (cut : τ) (item : α) (window : List α) :
    trim key cut (item :: window) = if key item < cut then trim key cut window else item :: window := by
  rw [trim, List.dropWhile_cons]
  split_ifs with below <;> simp_all [trim]

/-- A cut that comes later hides the earlier one. -/
theorem trim_trim_append (le : early ≤ late) (window later : List α) :
    trim key late (trim key early window ++ later) = trim key late (window ++ later) := by
  induction window with
  | nil => rfl
  | cons item window ih =>
    rw [trim_cons]
    split_ifs with below
    · rw [ih, List.cons_append, trim_cons, if_pos (lt_of_lt_of_le below le)]
    · rfl

/-- Of items in the order of their keys, those from the cut on are left. -/
theorem trim_eq_filter (sorted : (window.map key).Pairwise (· ≤ ·)) :
    trim key cut window = window.filter fun item => decide (cut ≤ key item) := by
  induction window with
  | nil => rfl
  | cons item window ih =>
    obtain ⟨first, rest⟩ := List.pairwise_cons.mp sorted
    rw [trim_cons]
    split_ifs with below
    · rw [ih rest, List.filter_cons_of_neg (by simpa using below)]
    · have all : ∀ other ∈ item :: window, decide (cut ≤ key other) = true := by
        intro other member
        rcases List.mem_cons.mp member with rfl | later
        · exact decide_eq_true (not_lt.mp below)
        · exact decide_eq_true (le_trans (not_lt.mp below) (first _ (List.mem_map_of_mem later)))
      exact (List.filter_eq_self.mpr all).symm

/-- Under every cut from `now` on a window shows what the history shows, whatever will be added to both. -/
def Holds (now : τ) (history window : List α) : Prop :=
  ∀ cut, now ≤ cut → ∀ later, trim key cut (window ++ later) = trim key cut (history ++ later)

variable {key}

theorem Holds.refl (now : τ) (history : List α) : Holds key now history history := fun _ _ _ => rfl

theorem Holds.append (holds : Holds key now history window) (items : List α) :
    Holds key now (history ++ items) (window ++ items) := by
  intro cut passed later
  rw [List.append_assoc, List.append_assoc]
  exact holds cut passed (items ++ later)

theorem Holds.trim (holds : Holds key now history window) (passed : now ≤ cut) :
    Holds key cut history (trim key cut window) := by
  intro further later rest
  rw [trim_trim_append key later, holds further (le_trans passed later) rest]

theorem Holds.mono (holds : Holds key now history window) (passed : now ≤ late) : Holds key late history window :=
  fun cut later => holds cut (le_trans passed later)

/-- What a window shows of a history in the order of its keys. -/
theorem Holds.trim_eq_filter (holds : Holds key now history window) (passed : now ≤ cut)
    (sorted : (history.map key).Pairwise (· ≤ ·)) :
    Window.trim key cut window = history.filter fun item => decide (cut ≤ key item) := by
  have same := holds cut passed []
  rw [List.append_nil, List.append_nil] at same
  rw [same, Window.trim_eq_filter key sorted]

end Window
