import WeakNetVideo.Library.BigEndian

/-! # Programs whose accesses are checked

A program over byte strings and arrays fails with a fault when it reads or writes outside of one, takes a size
from a smaller one, or goes round a loop without getting further. A program that ends without a fault has done
none of these. Loops run over offsets of a string, with any state.
-/

namespace Bounded

open BigEndian

/-- What must not happen: an access to a range of a string of some size, a subtraction, a turn of a loop. -/
inductive Fault where
  | outOfRange (first behind size : ℕ)
  | underflow (minuend subtrahend : ℕ)
  | stuck (offset : ℕ)
deriving DecidableEq, Repr

universe u

variable {α β σ : Type u}

theorem ok_bind (a : α) (f : α → Except Fault β) : ((Except.ok a : Except Fault α) >>= f) = f a := rfl

/-! ## Accesses -/

section Accesses

variable {bytes values : List UInt8} {first behind offset minuend subtrahend : ℕ}

/-- The bytes from one offset up to another. -/
def slice (bytes : List UInt8) (first behind : ℕ) : Except Fault (List UInt8) :=
  if first ≤ behind ∧ behind ≤ bytes.length then .ok ((bytes.drop first).take (behind - first))
  else .error (.outOfRange first behind bytes.length)

def byteAt (bytes : List UInt8) (offset : ℕ) : Except Fault UInt8 :=
  if offset + 1 ≤ bytes.length then .ok (bytes.getD offset 0)
  else .error (.outOfRange offset (offset + 1) bytes.length)

def readU16 (bytes : List UInt8) (offset : ℕ) : Except Fault UInt16 :=
  if offset + 2 ≤ bytes.length then .ok (BigEndian.readU16 bytes offset)
  else .error (.outOfRange offset (offset + 2) bytes.length)

def readU32 (bytes : List UInt8) (offset : ℕ) : Except Fault UInt32 :=
  if offset + 4 ≤ bytes.length then .ok (BigEndian.readU32 bytes offset)
  else .error (.outOfRange offset (offset + 4) bytes.length)

/-- Put values in the place of as many bytes from an offset on. -/
def overwrite (bytes : List UInt8) (offset : ℕ) (values : List UInt8) : Except Fault (List UInt8) :=
  if offset + values.length ≤ bytes.length then
    .ok (bytes.take offset ++ (values ++ bytes.drop (offset + values.length)))
  else .error (.outOfRange offset (offset + values.length) bytes.length)

/-- The difference of two sizes. -/
def sub (minuend subtrahend : ℕ) : Except Fault ℕ :=
  if subtrahend ≤ minuend then .ok (minuend - subtrahend) else .error (.underflow minuend subtrahend)

theorem slice_eq (ordered : first ≤ behind) (inside : behind ≤ bytes.length) :
    slice bytes first behind = .ok ((bytes.drop first).take (behind - first)) := if_pos ⟨ordered, inside⟩

/-- The rest of a string. -/
theorem slice_length (inside : first ≤ bytes.length) : slice bytes first bytes.length = .ok (bytes.drop first) := by
  rw [slice_eq inside (le_refl _), List.take_of_length_le (by rw [List.length_drop])]

/-- The front of a string. -/
theorem slice_zero (inside : behind ≤ bytes.length) : slice bytes 0 behind = .ok (bytes.take behind) := by
  rw [slice_eq (Nat.zero_le _) inside, List.drop_zero, Nat.sub_zero]

theorem byteAt_eq (inside : offset < bytes.length) : byteAt bytes offset = .ok (bytes.getD offset 0) := if_pos inside

theorem readU16_eq (inside : offset + 2 ≤ bytes.length) : readU16 bytes offset = .ok (BigEndian.readU16 bytes offset) :=
  if_pos inside

theorem readU32_eq (inside : offset + 4 ≤ bytes.length) : readU32 bytes offset = .ok (BigEndian.readU32 bytes offset) :=
  if_pos inside

theorem overwrite_eq (inside : offset + values.length ≤ bytes.length) :
    overwrite bytes offset values = .ok (bytes.take offset ++ (values ++ bytes.drop (offset + values.length))) :=
  if_pos inside

theorem sub_eq (le : subtrahend ≤ minuend) : sub minuend subtrahend = .ok (minuend - subtrahend) := if_pos le

end Accesses

/-! ## Arrays of any items -/

section Items

variable {items : List α} {item : α} {i : ℕ}

def itemAt (items : List α) (i : ℕ) : Except Fault α :=
  match items[i]? with
  | some item => .ok item
  | none => .error (.outOfRange i (i + 1) items.length)

def setItem (items : List α) (i : ℕ) (item : α) : Except Fault (List α) :=
  if i < items.length then .ok (items.set i item) else .error (.outOfRange i (i + 1) items.length)

theorem itemAt_eq (found : items[i]? = some item) : itemAt items i = .ok item := by
  rw [itemAt, found]

theorem setItem_eq (inside : i < items.length) : setItem items i item = .ok (items.set i item) := if_pos inside

/-- Take so many items from `i` on out of their places, which are left with a blank. -/
def takeOut (blank : α) : ℕ → ℕ → List α → Except Fault (List α × List α)
  | 0, _, items => return ([], items)
  | count + 1, i, items => do
    let item ← itemAt items i
    let (taken, left) ← takeOut blank count (i + 1) (← setItem items i blank)
    return (item :: taken, left)

theorem takeOut_eq {blank : α} {count : ℕ} (all : i + count = items.length) :
    takeOut blank count i items = .ok (items.drop i, items.take i ++ List.replicate count blank) := by
  induction count generalizing i items with
  | zero =>
    rw [Nat.add_zero] at all
    subst all
    rw [List.drop_length, List.take_length, List.replicate_zero, List.append_nil]
    rfl
  | succ count ih =>
    have inside : i < items.length := by omega
    have front : (items.set i blank).take (i + 1) = items.take i ++ [blank] := by
      rw [List.take_succ_eq_append_getElem (by rwa [List.length_set]), List.take_set_of_le (Nat.le_refl i),
        List.getElem_set_self]
    rw [takeOut, itemAt_eq (List.getElem?_eq_getElem inside), ok_bind, setItem_eq inside, ok_bind,
      ih (by rw [List.length_set]; omega), ok_bind, List.drop_set_of_lt (Nat.lt_succ_self i), front,
      List.append_assoc, List.singleton_append, ← List.replicate_succ, List.drop_eq_getElem_cons inside]
    rfl

end Items

/-! ## Loops -/

/-- How a turn of a loop ends: the loop is left, or it goes on at another offset. -/
inductive Turn (σ : Type u) where
  | stop (state : σ)
  | next (offset : ℕ) (state : σ)

/-- Take turns while there are so many bytes left behind the offset. -/
def loop (size width : ℕ) (turn : ℕ → σ → Except Fault (Turn σ)) (offset : ℕ) (state : σ) : Except Fault σ :=
  if offset + width ≤ size then
    match turn offset state with
    | .error fault => .error fault
    | .ok (.stop state) => .ok state
    | .ok (.next later state) => if offset < later then loop size width turn later state else .error (.stuck offset)
  else .ok state
termination_by size + 1 - offset

section Loop

variable {size width offset later : ℕ} {turn : ℕ → σ → Except Fault (Turn σ)} {state after : σ}

theorem loop_of_behind (behind : size < offset + width) : loop size width turn offset state = .ok state := by
  rw [loop, if_neg (Nat.not_le.mpr behind)]

theorem loop_of_stop (inside : offset + width ≤ size) (stops : turn offset state = .ok (.stop after)) :
    loop size width turn offset state = .ok after := by
  rw [loop, if_pos inside, stops]

theorem loop_of_next (inside : offset + width ≤ size) (goes : turn offset state = .ok (.next later after))
    (advances : offset < later) : loop size width turn offset state = loop size width turn later after := by
  rw [loop, if_pos inside, goes]
  exact if_pos advances

end Loop

/-- What is done for every item of a list without a fault. -/
theorem mapM_eq {f : α → Except Fault β} {g : α → β} {items : List α} (each : ∀ item ∈ items, f item = .ok (g item)) :
    items.mapM f = .ok (items.map g) := by
  induction items with
  | nil => rfl
  | cons item items ih =>
    obtain ⟨here, later⟩ := List.forall_mem_cons.mp each
    rw [List.mapM_cons, here, ok_bind, ih later]
    rfl

theorem foldlM_eq {f : σ → α → Except Fault σ} {g : σ → α → σ} (each : ∀ state item, f state item = .ok (g state item))
    (items : List α) (state : σ) : items.foldlM f state = .ok (items.foldl g state) := by
  induction items generalizing state with
  | nil => rfl
  | cons item items ih => rw [List.foldlM_cons, each, ok_bind, ih, List.foldl_cons]

end Bounded
