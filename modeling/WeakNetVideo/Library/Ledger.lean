import Mathlib.Data.Multiset.AddSub
import Mathlib.Data.Multiset.ZeroCons

/-! # Objects that are made, used and released

A program that keeps objects by hand writes a ledger: an object is made, used while it is held, and released once.
Objects are numbered in the order in which they are made. What a program holds and what it has written determine
each other, so a program that holds nothing has released everything.
-/

/-- What happens to an object. -/
inductive LedgerEntry where
  | made (object : ℕ)
  | used (object : ℕ)
  | released (object : ℕ)
deriving DecidableEq, Repr

/-- The entries written so far, with the number of the next object and the objects that are held. -/
inductive ObjectLedger : ℕ → List LedgerEntry → Multiset ℕ → Prop
  | empty : ObjectLedger 0 [] 0
  | make {next : ℕ} {log : List LedgerEntry} {held : Multiset ℕ} (ledger : ObjectLedger next log held) :
    ObjectLedger (next + 1) (log ++ [.made next]) (next ::ₘ held)
  | use {next object : ℕ} {log : List LedgerEntry} {held : Multiset ℕ} (ledger : ObjectLedger next log held)
    (member : object ∈ held) : ObjectLedger next (log ++ [.used object]) held
  | release {next object : ℕ} {log : List LedgerEntry} {held : Multiset ℕ}
    (ledger : ObjectLedger next log (object ::ₘ held)) : ObjectLedger next (log ++ [.released object]) held

/-- Every object is made once, and used and released only behind that and before its release. -/
def Orderly (log : List LedgerEntry) : Prop :=
  ∀ before entry after, log = before ++ entry :: after →
    match entry with
    | .made object => .made object ∉ before
    | .used object => .made object ∈ before ∧ .released object ∉ before
    | .released object => .made object ∈ before ∧ .released object ∉ before

namespace ObjectLedger

variable {next object : ℕ} {log : List LedgerEntry} {held : Multiset ℕ}

/-- What a ledger tells of the numbers below the next one, and of no others. -/
private structure Numbers (next : ℕ) (log : List LedgerEntry) (held : Multiset ℕ) : Prop where
  distinct : held.Nodup
  below : ∀ object ∈ held, object < next
  made : ∀ object, .made object ∈ log ↔ object < next
  released : ∀ object, .released object ∈ log ↔ object < next ∧ object ∉ held

private theorem numbers (ledger : ObjectLedger next log held) : Numbers next log held := by
  induction ledger with
  | empty => exact ⟨Multiset.nodup_zero, by simp, by simp, by simp⟩
  | @make next log held ledger ih =>
    have fresh : next ∉ held := fun member => absurd (ih.below next member) (Nat.lt_irrefl next)
    refine ⟨Multiset.nodup_cons.mpr ⟨fresh, ih.distinct⟩, fun object member => ?_, fun object => ?_, fun object => ?_⟩
    · rcases Multiset.mem_cons.mp member with rfl | older
      · exact Nat.lt_succ_self object
      · exact Nat.lt_succ_of_lt (ih.below object older)
    · simp only [List.mem_append, List.mem_singleton, LedgerEntry.made.injEq, ih.made object]
      omega
    · simp only [List.mem_append, List.mem_cons, List.not_mem_nil, reduceCtorEq, or_false, ih.released object,
        Multiset.mem_cons, not_or]
      constructor
      · exact fun old => ⟨by omega, by omega, old.2⟩
      · exact fun new => ⟨by omega, new.2.2⟩
  | use ledger member ih => exact ⟨ih.distinct, ih.below, by simpa using ih.made, by simpa using ih.released⟩
  | @release next object log held ledger ih =>
    obtain ⟨apart, distinct⟩ := Multiset.nodup_cons.mp ih.distinct
    refine ⟨distinct, fun other member => ih.below other (Multiset.mem_cons_of_mem member), by simpa using ih.made,
      fun other => ?_⟩
    simp only [List.mem_append, List.mem_cons, List.not_mem_nil, or_false, LedgerEntry.released.injEq,
      ih.released other, Multiset.mem_cons, not_or]
    have bound := ih.below object (Multiset.mem_cons_self object held)
    constructor
    · rintro (⟨below, -, free⟩ | rfl)
      · exact ⟨below, free⟩
      · exact ⟨bound, apart⟩
    · rintro ⟨below, free⟩
      by_cases same : other = object
      · exact .inr same
      · exact .inl ⟨below, same, free⟩

/-- No object is held twice. -/
theorem distinct (ledger : ObjectLedger next log held) : held.Nodup := ledger.numbers.distinct

/-- What is held is what has been made and not released. -/
theorem mem_held_iff (ledger : ObjectLedger next log held) :
    object ∈ held ↔ .made object ∈ log ∧ .released object ∉ log := by
  rw [ledger.numbers.made, ledger.numbers.released, not_and, not_not]
  constructor
  · exact fun member => ⟨ledger.numbers.below object member, fun _ => member⟩
  · exact fun kept => kept.2 kept.1

/-- A program that holds nothing has released all that it made. -/
theorem released_of_empty (ledger : ObjectLedger next log 0) (made : .made object ∈ log) : .released object ∈ log :=
  (ledger.numbers.released object).mpr ⟨(ledger.numbers.made object).mp made, Multiset.notMem_zero object⟩

private theorem orderly_concat {entry : LedgerEntry} (orderly : Orderly log)
    (last : match entry with
      | .made object => .made object ∉ log
      | .used object => .made object ∈ log ∧ .released object ∉ log
      | .released object => .made object ∈ log ∧ .released object ∉ log) : Orderly (log ++ [entry]) := by
  intro before other after split
  rcases List.eq_nil_or_concat after with rfl | ⟨rest, final, rfl⟩
  · obtain ⟨rfl, same⟩ := List.append_inj' split rfl
    obtain rfl := List.singleton_inj.mp same
    exact last
  · rw [List.concat_eq_append, ← List.cons_append, ← List.append_assoc] at split
    obtain ⟨rfl, _⟩ := List.append_inj' split rfl
    exact orderly before other rest rfl

/-- A ledger is orderly. -/
theorem orderly (ledger : ObjectLedger next log held) : Orderly log := by
  induction ledger with
  | empty =>
    intro before entry after split
    exact absurd split (by simp)
  | make ledger ih =>
    exact orderly_concat ih fun member => absurd ((ledger.numbers.made _).mp member) (Nat.lt_irrefl _)
  | use ledger member ih => exact orderly_concat ih (ledger.mem_held_iff.mp member)
  | release ledger ih => exact orderly_concat ih (ledger.mem_held_iff.mp (Multiset.mem_cons_self _ _))

/-! ## Several at once -/

/-- Some of what is held may be used. -/
theorem useAll {objects : List ℕ} (ledger : ObjectLedger next log held) (members : ∀ object ∈ objects, object ∈ held) :
    ObjectLedger next (log ++ objects.map .used) held := by
  induction objects generalizing log with
  | nil => rwa [List.map_nil, List.append_nil]
  | cons object objects ih =>
    obtain ⟨first, others⟩ := List.forall_mem_cons.mp members
    rw [List.map_cons, List.append_cons]
    exact ih (ledger.use first) others

/-- Some of what is held may be released. -/
theorem releaseAll {objects : List ℕ} (ledger : ObjectLedger next log (objects + held)) :
    ObjectLedger next (log ++ objects.map .released) held := by
  induction objects generalizing log with
  | nil => simpa using ledger
  | cons object objects ih =>
    rw [List.map_cons, List.append_cons]
    rw [← Multiset.cons_coe, Multiset.cons_add] at ledger
    exact ih ledger.release

end ObjectLedger
