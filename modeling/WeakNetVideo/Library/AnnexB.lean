import Mathlib.Data.List.Infix

/-! # Byte streams of NAL units

In a byte stream every NAL unit stands behind a start code of three or four bytes. Emulation prevention keeps
the start codes out of the units, and no unit ends in a zero byte, so that none arises where two units meet:
the bytes that follow the code of three bytes anywhere in a stream are the headers of its units.
-/

namespace AnnexB

/-- What announces a unit. -/
inductive StartCode where
  | three
  | four
deriving DecidableEq, Repr

def StartCode.bytes : StartCode → List UInt8
  | three => [0, 0, 1]
  | four => [0, 0, 0, 1]

/-- A unit after emulation prevention: a header with at least one more byte. -/
structure NalUnit where
  bytes : List UInt8
  long : 2 ≤ bytes.length
  trailing : bytes.getLast? ≠ some 0
  zerosFree : ¬[0, 0, 0] <:+: bytes
  codeFree : ¬[0, 0, 1] <:+: bytes

def NalUnit.header (unit : NalUnit) : UInt8 :=
  unit.bytes.head (List.ne_nil_of_length_pos (Nat.lt_of_lt_of_le Nat.two_pos unit.long))

/-- `nal_unit_type`. -/
def NalUnit.type (unit : NalUnit) : UInt8 := unit.header &&& 0x1f

/-- The byte stream of some units, each behind a start code of its own form. -/
def stream (units : List (StartCode × NalUnit)) : List UInt8 :=
  units.flatMap fun unit => unit.1.bytes ++ unit.2.bytes

/-- The header that a code of three bytes at the front announces. There is more than a header to a unit. -/
def headerHere : List UInt8 → Option UInt8
  | b₀ :: b₁ :: b₂ :: header :: _ :: _ => if b₀ = 0 ∧ b₁ = 0 ∧ b₂ = 1 then some header else none
  | _ => none

/-- The headers behind the codes of three bytes in any byte string. -/
def headers (bytes : List UInt8) : List UInt8 := bytes.tails.filterMap headerHere

@[simp] theorem headers_nil : headers [] = [] := rfl

theorem headers_cons (byte : UInt8) (bytes : List UInt8) :
    headers (byte :: bytes) = (headerHere (byte :: bytes)).toList ++ headers bytes := by
  rw [headers, List.tails_cons, List.filterMap_cons]
  cases headerHere (byte :: bytes) <;> rfl

theorem headerHere_eq_some {bytes : List UInt8} {header : UInt8} :
    headerHere bytes = some header ↔ 4 < bytes.length ∧ bytes.getD 0 0 = 0 ∧ bytes.getD 1 0 = 0 ∧
      bytes.getD 2 0 = 1 ∧ bytes.getD 3 0 = header := by
  match bytes with
  | [] | [_] | [_, _] | [_, _, _] | [_, _, _, _] => simp [headerHere]
  | b₀ :: b₁ :: b₂ :: b₃ :: b₄ :: more => simp [headerHere, and_assoc]

/-- Where a header stands. -/
theorem mem_headers {bytes : List UInt8} {header : UInt8} :
    header ∈ headers bytes ↔ ∃ i, i + 4 < bytes.length ∧ bytes.getD i 0 = 0 ∧ bytes.getD (i + 1) 0 = 0 ∧
      bytes.getD (i + 2) 0 = 1 ∧ bytes.getD (i + 3) 0 = header := by
  have here (i : ℕ) : headerHere (bytes.drop i) = some header ↔ i + 4 < bytes.length ∧ bytes.getD i 0 = 0 ∧
      bytes.getD (i + 1) 0 = 0 ∧ bytes.getD (i + 2) 0 = 1 ∧ bytes.getD (i + 3) 0 = header := by
    simp only [headerHere_eq_some, List.length_drop, List.getD_eq_getElem?_getD, List.getElem?_drop, Nat.add_zero,
      Nat.lt_sub_iff_add_lt']
  simp only [headers, List.mem_filterMap, List.mem_tails]
  constructor
  · rintro ⟨rest, suffix, found⟩
    rw [List.suffix_iff_eq_drop.mp suffix] at found
    exact ⟨_, (here _).mp found⟩
  · rintro ⟨i, found⟩
    exact ⟨bytes.drop i, List.drop_suffix i bytes, (here i).mpr found⟩

private theorem headers_cons_of_none {byte : UInt8} {bytes : List UInt8}
    (none_here : headerHere (byte :: bytes) = none) : headers (byte :: bytes) = headers bytes := by
  rw [headers_cons, none_here]
  rfl

private theorem headerHere_of_differs {byte : UInt8} {rest : List UInt8}
    (differs : ∀ b₁ b₂ after, rest = b₁ :: b₂ :: after → ¬(byte = 0 ∧ b₁ = 0 ∧ b₂ = 1)) :
    headerHere (byte :: rest) = none := by
  match rest with
  | [] | [_] | [_, _] | [_, _, _] => rfl
  | b₁ :: b₂ :: header :: next :: more => exact if_neg (differs b₁ b₂ _ rfl)

/-- No start code begins in the front of a string that ends in another byte than zero and is free of codes,
whatever follows. -/
private theorem headerHere_append {byte : UInt8} {bytes : List UInt8} (rest : List UInt8)
    (trailing : (byte :: bytes).getLast? ≠ some 0) (codeFree : ¬[0, 0, 1] <:+: byte :: bytes) :
    headerHere (byte :: (bytes ++ rest)) = none := by
  apply headerHere_of_differs
  rintro b₁ b₂ after same ⟨rfl, rfl, rfl⟩
  -- the code lies inside the front, or the last byte of the front is one of its zeros
  match bytes with
  | [] => exact trailing rfl
  | [b] =>
    obtain ⟨rfl, -⟩ := List.cons.inj same
    exact trailing rfl
  | b :: b' :: more =>
    obtain ⟨rfl, later⟩ := List.cons.inj same
    obtain ⟨rfl, -⟩ := List.cons.inj later
    exact codeFree ⟨[], more, rfl⟩

/-- What stands behind a unit is read as if the unit were not there. -/
theorem headers_append {bytes : List UInt8} (rest : List UInt8) (trailing : bytes.getLast? ≠ some 0)
    (codeFree : ¬[0, 0, 1] <:+: bytes) : headers (bytes ++ rest) = headers rest := by
  induction bytes with
  | nil => rfl
  | cons byte bytes ih =>
    have trailing' : bytes.getLast? ≠ some 0 := by
      intro last
      rw [List.getLast?_cons, last] at trailing
      exact trailing rfl
    rw [List.cons_append, headers_cons_of_none (headerHere_append rest trailing codeFree)]
    exact ih trailing' fun inside => codeFree (inside.trans (List.suffix_cons byte bytes).isInfix)

private theorem headers_three (header next : UInt8) (more : List UInt8) :
    headers (0 :: 0 :: 1 :: header :: next :: more) = header :: headers (header :: next :: more) := by
  have here : headerHere (0 :: 0 :: 1 :: header :: next :: more) = some header := rfl
  have second : headerHere (0 :: 1 :: header :: next :: more) = none := by
    apply headerHere_of_differs
    rintro b₁ b₂ after same ⟨-, rfl, -⟩
    cases same
  have third : headerHere (1 :: header :: next :: more) = none := by
    apply headerHere_of_differs
    rintro b₁ b₂ after - ⟨one, -, -⟩
    cases one
  rw [headers_cons, here, headers_cons_of_none second, headers_cons_of_none third]
  rfl

/-- Behind a start code of either form stands the header of its unit. -/
theorem headers_code (code : StartCode) (unit : NalUnit) (rest : List UInt8) :
    headers (code.bytes ++ (unit.bytes ++ rest)) = unit.header :: headers rest := by
  have behind := headers_append rest unit.trailing unit.codeFree
  obtain ⟨header, next, more, spelled⟩ : ∃ header next more, unit.bytes = header :: next :: more := by
    match unit.bytes, unit.long with
    | header :: next :: more, _ => exact ⟨header, next, more, rfl⟩
  have first : unit.header = header := by simp only [NalUnit.header, spelled, List.head_cons]
  have three : headers (0 :: 0 :: 1 :: (unit.bytes ++ rest)) = unit.header :: headers rest := by
    rw [first, ← behind, spelled]
    exact headers_three header next (more ++ rest)
  cases code with
  | three => exact three
  | four =>
    -- at the first zero the third byte is another zero
    have zero : headerHere (0 :: 0 :: 0 :: 1 :: (unit.bytes ++ rest)) = none := by
      apply headerHere_of_differs
      rintro b₁ b₂ after same ⟨-, -, rfl⟩
      cases same
    exact (headers_cons_of_none zero).trans three

/-- The headers of a stream are those of its units, in their order. -/
theorem headers_stream (units : List (StartCode × NalUnit)) :
    headers (stream units) = units.map fun unit => unit.2.header := by
  induction units with
  | nil => rfl
  | cons unit units ih =>
    rw [stream, List.flatMap_cons, List.append_assoc, headers_code, ← stream, ih]
    rfl

end AnnexB
