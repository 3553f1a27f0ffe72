import Mathlib
import WeakNetVideo.Library.Ledger

/-! # Variables that own objects

A program keeps its objects in variables and frees them by hand, and it may throw at any time. What it holds is told
by the set of the variables that hold something: a variable of the set must not be assigned again, one outside the set
must not be used. The rules are triples, so that what is held behind every return and every exception follows from the
program's text.
-/

section ObjectVariables

set_option mvcgen.warning false

open Std.Do

/-- The objects that variables hold, the ledger of them, and the other members of their owner. -/
structure Holder (Slot Member : Type) where
  held : Slot → Option ℕ := fun _ => none
  nextObject : ℕ := 0
  log : List LedgerEntry := []
  usedNull : Bool := false
  member : Member

/-- Programs that handle objects and may throw. -/
abbrev Owning (Slot Member Error : Type) := ExceptT Error (StateM (Holder Slot Member))

variable {Slot Member Error : Type} [DecidableEq Slot]

namespace Holder

/-- An object is assigned to a variable, or none where it could not be made. What the variable held is not freed. -/
def make (slot : Slot) (made : Bool) (h : Holder Slot Member) : Holder Slot Member :=
  if made then
    { h with
      held := Function.update h.held slot (some h.nextObject)
      nextObject := h.nextObject + 1
      log := h.log ++ [.made h.nextObject] }
  else { h with held := Function.update h.held slot none }

/-- The object of a variable is handed to a call. -/
def use (slot : Slot) (h : Holder Slot Member) : Holder Slot Member :=
  match h.held slot with
  | some object => { h with log := h.log ++ [.used object] }
  | none => { h with usedNull := true }

/-- The object of a variable is freed, if there is one, and the variable cleared. -/
def free (slot : Slot) (h : Holder Slot Member) : Holder Slot Member :=
  match h.held slot with
  | some object => { h with held := Function.update h.held slot none, log := h.log ++ [.released object] }
  | none => h

/-- The variables of a set, and no others, hold objects, and the ledger tells of them; none was used without one. -/
structure Owns (h : Holder Slot Member) (slots : Finset Slot) (member : Member) : Prop where
  holds : ∀ slot, slot ∈ slots ↔ (h.held slot).isSome
  ledger : ObjectLedger h.nextObject h.log (slots.val.filterMap h.held)
  usedNull : h.usedNull = false
  member : h.member = member

/-- The ledger tells of no release. -/
def Unreleased (h : Holder Slot Member) : Prop := ∀ object, .released object ∉ h.log

variable {slots : Finset Slot} {member : Member} {slot : Slot} {h : Holder Slot Member}

private theorem filterMap_update {held : Slot → Option ℕ} {object : Option ℕ} {others : Multiset Slot}
    (apart : slot ∉ others) : others.filterMap (Function.update held slot object) = others.filterMap held := by
  induction others using Multiset.induction with
  | empty => rfl
  | cons other others ih =>
    obtain ⟨first, rest⟩ := not_or.mp (Multiset.mem_cons.not.mp apart)
    rw [Multiset.filterMap_cons, Multiset.filterMap_cons, ih rest, Function.update_of_ne (Ne.symm first)]

namespace Owns

omit [DecidableEq Slot] in
theorem held_of_mem (owns : h.Owns slots member) (inside : slot ∈ slots) : ∃ object, h.held slot = some object :=
  Option.isSome_iff_exists.mp ((owns.holds slot).mp inside)

omit [DecidableEq Slot] in
theorem held_of_notMem (owns : h.Owns slots member) (outside : slot ∉ slots) : h.held slot = none := by
  rw [owns.holds, Bool.not_eq_true, Option.isSome_eq_false_iff, Option.isNone_iff_eq_none] at outside
  exact outside

omit [DecidableEq Slot] in
theorem mem_held_iff (owns : h.Owns slots member) {object : ℕ} :
    object ∈ slots.val.filterMap h.held ↔ ∃ slot, h.held slot = some object := by
  rw [Multiset.mem_filterMap]
  constructor
  · exact fun ⟨slot, _, here⟩ => ⟨slot, here⟩
  · exact fun ⟨slot, here⟩ => ⟨slot, (owns.holds slot).mpr (by simp [here]), here⟩

/-- No two variables hold one object. -/
theorem injective (owns : h.Owns slots member) {other : Slot} {object : ℕ} (here : h.held slot = some object)
    (there : h.held other = some object) : slot = other := by
  by_contra apart
  have first : slot ∈ slots := (owns.holds slot).mpr (by simp [here])
  have second : other ∈ slots.erase slot :=
    Finset.mem_erase.mpr ⟨Ne.symm apart, (owns.holds other).mpr (by simp [there])⟩
  have distinct := owns.ledger.distinct
  rw [← Multiset.cons_erase first, ← Finset.erase_val, ← Multiset.cons_erase second,
    Multiset.filterMap_cons_some _ _ _ here, Multiset.filterMap_cons_some _ _ _ there] at distinct
  exact (Multiset.nodup_cons.mp distinct).1 (Multiset.mem_cons_self object _)

theorem make (owns : h.Owns slots member) (empty : slot ∉ slots) (made : Bool) :
    (h.make slot made).Owns (if made then insert slot slots else slots) member := by
  cases made with
  | true =>
    refine ⟨fun other => ?_, ?_, owns.usedNull, owns.member⟩
    · by_cases same : other = slot
      · simp [Holder.make, same]
      · simp [Holder.make, same, owns.holds other]
    · change ObjectLedger (h.nextObject + 1) (h.log ++ [.made h.nextObject])
        ((insert slot slots).val.filterMap (Function.update h.held slot (some h.nextObject)))
      rw [Finset.insert_val_of_notMem empty, Multiset.filterMap_cons_some _ _ _ (Function.update_self ..),
        filterMap_update empty]
      exact owns.ledger.make
  | false =>
    refine ⟨fun other => ?_, ?_, owns.usedNull, owns.member⟩
    · by_cases same : other = slot
      · simp [Holder.make, same, empty]
      · simp [Holder.make, same, owns.holds other]
    · change ObjectLedger h.nextObject h.log (slots.val.filterMap (Function.update h.held slot none))
      rw [filterMap_update empty]
      exact owns.ledger

omit [DecidableEq Slot] in
theorem use (owns : h.Owns slots member) (inside : slot ∈ slots) : (h.use slot).Owns slots member := by
  obtain ⟨object, here⟩ := owns.held_of_mem inside
  rw [Holder.use, here]
  exact ⟨owns.holds, owns.ledger.use ((Multiset.mem_filterMap _ _).mpr ⟨slot, inside, here⟩), owns.usedNull,
    owns.member⟩

theorem free (owns : h.Owns slots member) (slot : Slot) : (h.free slot).Owns (slots.erase slot) member := by
  by_cases inside : slot ∈ slots
  · obtain ⟨object, here⟩ := owns.held_of_mem inside
    rw [Holder.free, here]
    refine ⟨fun other => ?_, ?_, owns.usedNull, owns.member⟩
    · by_cases same : other = slot
      · simp [same]
      · simp [same, owns.holds other]
    · have apart : slot ∉ (slots.erase slot).val := Finset.notMem_erase slot slots
      simp only [filterMap_update apart]
      apply ObjectLedger.release
      rw [← Multiset.filterMap_cons_some h.held slot _ here, Finset.erase_val, Multiset.cons_erase inside]
      exact owns.ledger
  · rw [Holder.free, owns.held_of_notMem inside, Finset.erase_eq_of_notMem inside]
    exact owns

omit [DecidableEq Slot] in
theorem change (owns : h.Owns slots member) (changed : Member) : Owns { h with member := changed } slots changed :=
  ⟨owns.holds, owns.ledger, owns.usedNull, rfl⟩

end Owns

end Holder

namespace Owning

/-- `slot = ...`, for a call that makes an object or fails. -/
def make (slot : Slot) (made : Bool) : Owning Slot Member Error Unit := modify (Holder.make slot made)

/-- A call with the object of a variable. -/
def use (slot : Slot) : Owning Slot Member Error Unit := modify (Holder.use slot)

/-- A call that frees the object of a variable and clears it. -/
def free (slot : Slot) : Owning Slot Member Error Unit := modify (Holder.free slot)

/-- The test of a variable. -/
def holds (slot : Slot) : Owning Slot Member Error Bool := return ((← get).held slot).isSome

/-- An assignment to the other members of the owner. -/
def setMember (change : Member → Member) : Owning Slot Member Error Unit :=
  modify fun h => { h with member := change h.member }

/-- An exception where a test fails. -/
def throwIf (failed : Bool) (error : Error) : Owning Slot Member Error Unit := if failed then throw error else pure ()

/-- `slot = ...`, and an exception where the call fails. -/
def allocate (slot : Slot) (made : Bool) (error : Error) : Owning Slot Member Error Unit := do
  make slot made
  throwIf (!made) error

section Rules

variable {slots : Finset Slot} {member : Member} {slot : Slot}

@[spec] theorem make_spec (made : Bool) (empty : slot ∉ slots) :
    ⦃fun h => ⌜h.Owns slots member⌝⦄ (make slot made : Owning Slot Member Error Unit)
    ⦃⇓ _ h => ⌜h.Owns (if made then insert slot slots else slots) member⌝⦄ := by
  mvcgen [make]
  rename_i h owns t
  exact owns.make empty made

omit [DecidableEq Slot] in
@[spec] theorem use_spec (inside : slot ∈ slots) :
    ⦃fun h => ⌜h.Owns slots member⌝⦄ (use slot : Owning Slot Member Error Unit) ⦃⇓ _ h => ⌜h.Owns slots member⌝⦄ := by
  mvcgen [use]
  rename_i h owns t
  exact owns.use inside

@[spec] theorem free_spec :
    ⦃fun h => ⌜h.Owns slots member⌝⦄ (free slot : Owning Slot Member Error Unit)
    ⦃⇓ _ h => ⌜h.Owns (slots.erase slot) member⌝⦄ := by
  mvcgen [free]
  rename_i h owns t
  exact owns.free slot

@[spec] theorem holds_spec :
    ⦃fun h => ⌜h.Owns slots member⌝⦄ (holds slot : Owning Slot Member Error Bool)
    ⦃⇓ result h => ⌜h.Owns (if result then insert slot slots else slots.erase slot) member⌝⦄ := by
  mvcgen [holds]
  rename_i h owns
  by_cases inside : slot ∈ slots
  · rw [(owns.holds slot).mp inside, if_pos rfl, Finset.insert_eq_self.mpr inside]
    exact owns
  · rw [Bool.eq_false_iff.mpr (mt (owns.holds slot).mpr inside), if_neg Bool.false_ne_true,
      Finset.erase_eq_of_notMem inside]
    exact owns

omit [DecidableEq Slot] in
@[spec] theorem setMember_spec (change : Member → Member) :
    ⦃fun h => ⌜h.Owns slots member⌝⦄ (setMember change : Owning Slot Member Error Unit)
    ⦃⇓ _ h => ⌜h.Owns slots (change member)⌝⦄ := by
  mvcgen [setMember]
  rename_i h owns t
  exact owns.member ▸ owns.change (change h.member)

omit [DecidableEq Slot] in
@[spec] theorem throwIf_spec (failed : Bool) (error : Error) :
    ⦃fun h => ⌜h.Owns slots member⌝⦄ (throwIf failed error : Owning Slot Member Error Unit)
    ⦃post⟨fun _ h => ⌜h.Owns slots member⌝, fun _ h => ⌜h.Owns slots member⌝⟩⦄ := by
  mvcgen [throwIf]

@[spec] theorem allocate_spec (made : Bool) (error : Error) (empty : slot ∉ slots) :
    ⦃fun h => ⌜h.Owns slots member⌝⦄ (allocate slot made error : Owning Slot Member Error Unit)
    ⦃post⟨fun _ h => ⌜h.Owns (insert slot slots) member⌝, fun _ h => ⌜h.Owns slots member⌝⟩⦄ := by
  cases made with
  | true => mvcgen [allocate, throwIf]
  | false => mvcgen [allocate, throwIf]

end Rules

/-! ## Nothing is freed -/

section Unreleased

variable (slot : Slot) (made : Bool) (error : Error)

theorem make_unreleased :
    ⦃fun h => ⌜h.Unreleased⌝⦄ (make slot made : Owning Slot Member Error Unit) ⦃⇓ _ h => ⌜h.Unreleased⌝⦄ := by
  mvcgen [make, -make_spec]
  rename_i h unreleased t
  intro object
  cases made <;> simpa [t, Holder.make] using unreleased object

omit [DecidableEq Slot] in
theorem use_unreleased :
    ⦃fun h => ⌜h.Unreleased⌝⦄ (use slot : Owning Slot Member Error Unit) ⦃⇓ _ h => ⌜h.Unreleased⌝⦄ := by
  mvcgen [use, -use_spec]
  rename_i h unreleased t
  intro object
  cases here : h.held slot <;> simpa [t, Holder.use, here] using unreleased object

omit [DecidableEq Slot] in
theorem throwIf_unreleased (failed : Bool) :
    ⦃fun h => ⌜h.Unreleased⌝⦄ (throwIf failed error : Owning Slot Member Error Unit)
    ⦃post⟨fun _ h => ⌜h.Unreleased⌝, fun _ h => ⌜h.Unreleased⌝⟩⦄ := by
  mvcgen [throwIf, -throwIf_spec]

omit [DecidableEq Slot] in
theorem setMember_unreleased (change : Member → Member) :
    ⦃fun h => ⌜h.Unreleased⌝⦄ (setMember change : Owning Slot Member Error Unit) ⦃⇓ _ h => ⌜h.Unreleased⌝⦄ := by
  mvcgen [setMember, -setMember_spec]

theorem allocate_unreleased :
    ⦃fun h => ⌜h.Unreleased⌝⦄ (allocate slot made error : Owning Slot Member Error Unit)
    ⦃post⟨fun _ h => ⌜h.Unreleased⌝, fun _ h => ⌜h.Unreleased⌝⟩⦄ := by
  mvcgen [allocate, -allocate_spec, -make_spec, -throwIf_spec, make_unreleased, throwIf_unreleased]

end Unreleased

/-- The generator of conditions takes a value in the context for that of every call; behind a function it does not. -/
theorem behind {α : Type} (x : α) : ∃ f : Unit → α, f () = x := ⟨fun _ => x, rfl⟩

end Owning

/-- What a triple says of a run. -/
theorem ends_of_triple {σ ε α : Type} {x : ExceptT ε (StateM σ) α} {P : σ → Prop} {ok : α → σ → Prop}
    {thrown : ε → σ → Prop}
    (triple : ⦃fun s => ⌜P s⌝⦄ x ⦃post⟨fun a s => ⌜ok a s⌝, fun e s => ⌜thrown e s⌝⟩⦄) {s : σ} (start : P s) :
    match x.run.run s with
    | (.ok a, t) => ok a t
    | (.error e, t) => thrown e t := by
  have ends := triple s start
  simp only [WP.wp, PredTrans.apply_pushExcept, PredTrans.apply_pushArg] at ends
  cases run : x.run.run s with
  | mk outcome t =>
    rw [show (StateT.run x.run s).run = (outcome, t) from run] at ends
    cases outcome with
    | ok a => exact ends
    | error e => exact ends

end ObjectVariables
