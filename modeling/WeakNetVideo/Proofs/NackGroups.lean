import Mathlib.Data.List.Induction
import Mathlib.Data.Nat.Bitwise
import WeakNetVideo.Model.Receiver
import WeakNetVideo.Model.Sender

/-! # Groups of lost packets

Missing packets are grouped in index order. Each one either opens a group or sets the next higher bit of
the last group, so that the groups spell what was missing in the same order.
-/

namespace WeakNetVideo

open BigEndian

/-! ## One group -/

variable {blp first pid : UInt16} {bit : ℕ} {indices : List ℕ} {groups : List NackGroup}

private theorem toNat_shift_one (fits : bit < 16) : ((1 : UInt16) <<< UInt16.ofNat bit).toNat = 2 ^ bit := by
  have all : ∀ bit : Fin 16, ((1 : UInt16) <<< UInt16.ofNat bit.val).toNat = 2 ^ bit.val := by decide
  exact all ⟨bit, fits⟩

private theorem bit_set_iff (fits : bit < 16) :
    (blp &&& (1 <<< UInt16.ofNat bit) ≠ 0) ↔ blp.toNat.testBit bit = true := by
  rw [ne_eq, ← UInt16.toNat_inj, UInt16.toNat_and, toNat_shift_one fits, Nat.and_two_pow]
  cases blp.toNat.testBit bit <;> simp

/-- The packets of a group, by the bits of its bitmap. -/
private theorem sequenceNumbers_eq (group : NackGroup) : group.sequenceNumbers =
    group.pid :: ((List.range 16).filter fun bit => group.blp.toNat.testBit bit).map
      fun bit => group.pid + 1 + UInt16.ofNat bit := by
  rw [NackGroup.sequenceNumbers]
  congr 2
  apply List.filter_congr
  intro bit inside
  rw [List.mem_range] at inside
  simp only [bit_set_iff inside, Bool.decide_eq_true]

/-- A filter that gains one element above all others gains it at the end. -/
private theorem filter_range_gain {keep : ℕ → Bool} {new size : ℕ} (inside : new < size)
    (below : ∀ old, keep old = true → old < new) :
    (List.range size).filter (fun old => keep old || old == new) =
      (List.range size).filter keep ++ [new] := by
  obtain ⟨rest, rfl⟩ : ∃ rest, size = new + 1 + rest := ⟨size - (new + 1), by omega⟩
  have above : ∀ old ∈ List.map (new + 1 + ·) (List.range rest), new < old := by simp; omega
  have dropped : (List.map (new + 1 + ·) (List.range rest)).filter keep = [] :=
    List.filter_eq_nil_iff.mpr fun old member kept => by
      have := above old member
      have := below old kept
      omega
  have dropped' : (List.map (new + 1 + ·) (List.range rest)).filter
      (fun old => keep old || old == new) = [] :=
    List.filter_eq_nil_iff.mpr fun old member kept => by
      have := above old member
      rcases Bool.or_eq_true _ _ ▸ kept with kept | same
      · have := below old kept
        omega
      · have := beq_iff_eq.mp same
        omega
  have kept : (List.range new).filter (fun old => keep old || old == new) = (List.range new).filter keep := by
    apply List.filter_congr
    intro old member
    rw [List.mem_range] at member
    simp [Nat.ne_of_lt member]
  have last : keep new = false := Bool.eq_false_iff.mpr fun kept => Nat.lt_irrefl _ (below new kept)
  rw [List.range_add, List.range_succ, List.filter_append, List.filter_append, List.filter_append,
    List.filter_append, dropped, dropped', kept]
  simp [last]

/-- Setting a bit above all others adds its packet behind the others. -/
private theorem sequenceNumbers_set_bit (fits : bit < 16) (below : blp.toNat < 2 ^ bit) :
    NackGroup.sequenceNumbers ⟨pid, blp ||| (1 <<< UInt16.ofNat bit)⟩ =
      NackGroup.sequenceNumbers ⟨pid, blp⟩ ++ [pid + 1 + UInt16.ofNat bit] := by
  have bits (old : ℕ) : (blp ||| (1 <<< UInt16.ofNat bit)).toNat.testBit old =
      (blp.toNat.testBit old || old == bit) := by
    rw [UInt16.toNat_or, toNat_shift_one fits, Nat.testBit_or, Nat.testBit_two_pow]
    congr 1
    exact decide_eq_decide.mpr eq_comm
  have order (old : ℕ) (set : blp.toNat.testBit old = true) : old < bit := by
    by_contra above
    exact absurd set (by
      rw [Nat.testBit_lt_two_pow (Nat.lt_of_lt_of_le below (Nat.pow_le_pow_right (by decide) (by omega)))]
      decide)
  simp only [sequenceNumbers_eq, bits, filter_range_gain fits order, List.map_append, List.map_cons,
    List.map_nil, List.cons_append]

/-! ## All groups -/

/-- The groups of the indices so far. The last group starts at an index that leaves room for seventeen
packets for each group before it, and has no bit above the last index. -/
structure Grouped (first : UInt16) (indices : List ℕ) (groups : List NackGroup) : Prop where
  spell : groups.flatMap NackGroup.sequenceNumbers = indices.map fun i => first + UInt16.ofNat i
  last : ∀ group ∈ groups.getLast?, ∃ start, group.pid = first + UInt16.ofNat start ∧
    17 * groups.length ≤ start + 17 ∧
    ∃ newest ∈ indices.getLast?, start ≤ newest ∧ group.blp.toNat < 2 ^ (newest - start)

theorem grouped_nil (first : UInt16) : Grouped first [] [] :=
  ⟨rfl, fun _ none => absurd none (by simp)⟩

private theorem toNat_index_sub {start i : ℕ} (order : start ≤ i) (fits : i < 65536) :
    (first + UInt16.ofNat i - (first + UInt16.ofNat start)).toNat = i - start := by
  have difference : first + UInt16.ofNat i - (first + UInt16.ofNat start) = UInt16.ofNat (i - start) := by
    rw [UInt16.ofNat_sub order]
    grind
  rw [difference, UInt16.toNat_ofNat', Nat.mod_eq_of_lt (by omega)]

private theorem sequenceNumbers_single (pid : UInt16) : NackGroup.sequenceNumbers ⟨pid, 0⟩ = [pid] := by
  simp [sequenceNumbers_eq]

/-- Beyond the reach of the last group another one is opened. -/
private theorem grouped_open (grouped : Grouped first indices groups) {i : ℕ} (fits : i < 65536)
    (later : ∀ old ∈ indices, old < i)
    (far : ∀ group ∈ groups.getLast?, (first + UInt16.ofNat i - group.pid).toNat > 16) :
    Grouped first (indices ++ [i]) (groups ++ [⟨first + UInt16.ofNat i, 0⟩]) := by
  constructor
  · rw [List.flatMap_append, grouped.spell, List.map_append, List.flatMap_singleton, sequenceNumbers_single]
    rfl
  · simp only [List.getLast?_append, List.getLast?_singleton, Option.some_or, Option.mem_def,
      Option.some.injEq, forall_eq']
    refine ⟨i, rfl, ?_, i, rfl, Nat.le_refl i, by simp⟩
    rw [List.length_append, List.length_singleton]
    cases newest : groups.getLast? with
    | none => rw [List.getLast?_eq_none_iff.mp newest]; simp
    | some group =>
      obtain ⟨start, pid, room, old, member, order, _⟩ := grouped.last group newest
      have below := later old (List.mem_of_getLast? member)
      have apart := far group newest
      rw [pid, toNat_index_sub (by omega) fits] at apart
      omega

/-- Within the reach of the last group its bitmap gains a bit. -/
private theorem grouped_extend {group : NackGroup} (grouped : Grouped first indices (groups ++ [group]))
    {i : ℕ} (fits : i < 65536) (later : ∀ old ∈ indices, old < i)
    (near : (first + UInt16.ofNat i - group.pid).toNat ≤ 16) :
    Grouped first (indices ++ [i]) (groups ++ [⟨group.pid,
      group.blp ||| (1 <<< (first + UInt16.ofNat i - group.pid - 1))⟩]) := by
  obtain ⟨start, pid, room, old, member, order, bound⟩ := grouped.last group (by simp)
  have below := later old (List.mem_of_getLast? member)
  have apart := @toNat_index_sub first start i (by omega) fits
  rw [pid, apart] at near
  have shift : first + UInt16.ofNat i - group.pid - 1 = UInt16.ofNat (i - start - 1) := by
    rw [UInt16.ofNat_sub (by omega), UInt16.ofNat_sub (by omega), pid]
    grind
  have next : group.pid + 1 + UInt16.ofNat (i - start - 1) = first + UInt16.ofNat i := by
    rw [← shift]
    grind
  have small : group.blp.toNat < 2 ^ (i - start - 1) :=
    Nat.lt_of_lt_of_le bound (Nat.pow_le_pow_right (by decide) (by omega))
  rw [shift]
  constructor
  · have spell := grouped.spell
    rw [List.flatMap_append, List.flatMap_singleton] at spell
    rw [List.flatMap_append, List.flatMap_singleton, sequenceNumbers_set_bit (by omega) small, next,
      ← List.append_assoc, spell, List.map_append]
    rfl
  · simp only [List.getLast?_append, List.getLast?_singleton, Option.some_or, Option.mem_def,
      Option.some.injEq, forall_eq']
    refine ⟨start, pid, by simpa using room, i, rfl, by omega, ?_⟩
    rw [UInt16.toNat_or, toNat_shift_one (by omega)]
    exact Nat.or_lt_two_pow (Nat.lt_of_lt_of_le small (Nat.pow_le_pow_right (by decide) (by omega)))
      (Nat.pow_lt_pow_right (by decide) (by omega))

/-- One missing packet more. -/
theorem grouped_addMissing (grouped : Grouped first indices groups) {i : ℕ} (fits : i < 65536)
    (later : ∀ old ∈ indices, old < i) :
    Grouped first (indices ++ [i]) (addMissing groups (first + UInt16.ofNat i)) := by
  rw [addMissing]
  cases newest : groups.getLast? with
  | none => exact grouped_open grouped fits later (by simp [newest])
  | some group =>
    obtain ⟨earlier, rfl⟩ := List.getLast?_eq_some_iff.mp newest
    dsimp only
    split_ifs with far
    · exact grouped_open grouped fits later fun other same => by
        rw [newest] at same
        obtain rfl := Option.some.inj same
        exact far
    · rw [List.dropLast_concat]
      exact grouped_extend grouped fits later (Nat.le_of_not_lt far)

/-- Indices in order are spelled by their groups. -/
theorem grouped_nackGroups (ordered : indices.Pairwise (· < ·)) (fits : ∀ i ∈ indices, i < 65536) :
    Grouped first indices (nackGroups (indices.map fun i => first + UInt16.ofNat i)) := by
  induction indices using List.reverseRecOn with
  | nil => exact grouped_nil first
  | append_singleton indices i ih =>
    obtain ⟨earlier, _, later⟩ := List.pairwise_append.mp ordered
    have before := ih earlier fun old member => fits old (List.mem_append_left _ member)
    rw [nackGroups, List.map_append, List.foldl_append, ← nackGroups]
    exact grouped_addMissing before (fits i (by simp)) fun old member => later old member i (by simp)

/-- There is room for all groups in one message. -/
theorem Grouped.length_le (grouped : Grouped first indices groups) (fits : ∀ i ∈ indices, i < 65536) :
    groups.length ≤ 3856 := by
  cases newest : groups.getLast? with
  | none => rw [List.getLast?_eq_none_iff.mp newest]; simp
  | some group =>
    obtain ⟨start, _, room, old, member, order, _⟩ := grouped.last group newest
    have := fits old (List.mem_of_getLast? member)
    omega

end WeakNetVideo
