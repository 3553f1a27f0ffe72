import Mathlib.Data.List.Basic
import Mathlib.Tactic.Positivity
import Mathlib.Tactic.Ring

/-! # Big-endian numbers in byte strings

`encode n v` is the low `n` bytes of `v`, most significant first, and `value` reads any byte string
back as a number. The fixed-width readers and writers are the network byte order of 16 and 32 bit
words at an offset of a larger buffer.
-/

namespace BigEndian

/-- The low `n` bytes of `v`, most significant first. -/
def encode : ℕ → ℕ → List UInt8
  | 0, _ => []
  | n + 1, v => UInt8.ofNat (v / 256 ^ n) :: encode n v

/-- The number a byte string spells. -/
def value (bytes : List UInt8) : ℕ :=
  bytes.foldl (fun acc byte => acc * 256 + byte.toNat) 0

@[simp] theorem length_encode (n v : ℕ) : (encode n v).length = n := by
  induction n with
  | zero => rfl
  | succ n ih => simp only [encode, List.length_cons, ih]

private theorem foldl_encode (n v acc : ℕ) :
    (encode n v).foldl (fun acc byte => acc * 256 + byte.toNat) acc = acc * 256 ^ n + v % 256 ^ n := by
  induction n generalizing acc with
  | zero => simp [encode, Nat.mod_one]
  | succ n ih =>
    have byte : (UInt8.ofNat (v / 256 ^ n)).toNat = v / 256 ^ n % 256 := by simp
    have split : v % 256 ^ (n + 1) = 256 ^ n * (v / 256 ^ n % 256) + v % 256 ^ n := by
      rw [Nat.pow_succ, Nat.mod_mul, Nat.add_comm]
    rw [encode, List.foldl_cons, ih, byte, split, Nat.pow_succ]
    ring

/-- What was encoded reads back, reduced to the width it was given. -/
theorem value_encode (n v : ℕ) : value (encode n v) = v % 256 ^ n := by
  simpa [value] using foldl_encode n v 0

private theorem foldl_value (bytes : List UInt8) (acc : ℕ) :
    bytes.foldl (fun acc byte => acc * 256 + byte.toNat) acc = acc * 256 ^ bytes.length + value bytes := by
  induction bytes generalizing acc with
  | nil => simp [value]
  | cons byte bytes ih =>
    rw [value, List.foldl_cons, List.foldl_cons, ih, ih (0 * 256 + byte.toNat), List.length_cons, Nat.pow_succ]
    ring

private theorem value_cons (byte : UInt8) (bytes : List UInt8) :
    value (byte :: bytes) = byte.toNat * 256 ^ bytes.length + value bytes := by
  rw [value, List.foldl_cons, foldl_value, Nat.zero_mul, Nat.zero_add]

private theorem value_lt (bytes : List UInt8) : value bytes < 256 ^ bytes.length := by
  induction bytes with
  | nil => exact Nat.one_pos
  | cons byte bytes ih =>
    have small : byte.toNat + 1 ≤ 256 := byte.toNat_lt
    calc value (byte :: bytes) = byte.toNat * 256 ^ bytes.length + value bytes := value_cons byte bytes
      _ < (byte.toNat + 1) * 256 ^ bytes.length := by rw [Nat.add_mul, Nat.one_mul]; omega
      _ ≤ 256 * 256 ^ bytes.length := Nat.mul_le_mul_right _ small
      _ = 256 ^ (byte :: bytes).length := by rw [List.length_cons, Nat.pow_succ, Nat.mul_comm]

private theorem encode_mul_add (n high low : ℕ) : encode n (high * 256 ^ n + low) = encode n low := by
  induction n generalizing high low with
  | zero => rfl
  | succ n ih =>
    have split : high * 256 ^ (n + 1) + low = (high * 256) * 256 ^ n + low := by
      rw [Nat.pow_succ]
      ring
    have byte : UInt8.ofNat ((high * 256 * 256 ^ n + low) / 256 ^ n) = UInt8.ofNat (low / 256 ^ n) := by
      apply UInt8.toNat_inj.mp
      rw [UInt8.toNat_ofNat', UInt8.toNat_ofNat', Nat.add_comm, Nat.add_mul_div_right _ _ (by positivity)]
      omega
    rw [split, encode, encode, byte, ih]

/-- The bytes of a number are those it was spelled with. -/
theorem encode_value (bytes : List UInt8) : encode bytes.length (value bytes) = bytes := by
  induction bytes with
  | nil => rfl
  | cons byte bytes ih =>
    have high : (byte.toNat * 256 ^ bytes.length + value bytes) / 256 ^ bytes.length = byte.toNat := by
      rw [Nat.add_comm, Nat.add_mul_div_right _ _ (by positivity), Nat.div_eq_of_lt (value_lt bytes),
        Nat.zero_add]
    rw [value_cons, List.length_cons, encode, high, encode_mul_add, ih, UInt8.ofNat_toNat]

/-- The `n` bytes at an offset, as a number. -/
def valueAt (n : ℕ) (bytes : List UInt8) (offset : ℕ) : ℕ :=
  value ((bytes.drop offset).take n)

/-- A field is found again behind any bytes and in front of any bytes. -/
theorem valueAt_append (before after : List UInt8) (n v : ℕ) {offset : ℕ}
    (here : offset = before.length) :
    valueAt n (before ++ (encode n v ++ after)) offset = v % 256 ^ n := by
  subst here
  rw [valueAt, List.drop_left, List.take_append_of_le_length (by simp),
    List.take_of_length_le (by simp), value_encode]

/-- A field of an inner byte string is found again wherever that stands. -/
theorem valueAt_within (before after : List UInt8) {inner : List UInt8} {n k : ℕ}
    (inside : k + n ≤ inner.length) :
    valueAt n (before ++ (inner ++ after)) (before.length + k) = valueAt n inner k := by
  rw [valueAt, ← List.drop_drop, List.drop_left, List.drop_append_of_le_length (by omega),
    List.take_append_of_le_length (by rw [List.length_drop]; omega)]
  rfl

/-- A field of a part of a byte string is a field of the whole. -/
theorem valueAt_part (bytes : List UInt8) (first : ℕ) {n size offset : ℕ} (inside : offset + n ≤ size) :
    valueAt n ((bytes.drop first).take size) offset = valueAt n bytes (first + offset) := by
  rw [valueAt, List.drop_take, List.take_take, List.drop_drop, Nat.min_eq_left (by omega), valueAt]

theorem valueAt_drop (bytes : List UInt8) (first n offset : ℕ) :
    valueAt n (bytes.drop first) offset = valueAt n bytes (first + offset) := by
  rw [valueAt, List.drop_drop, valueAt]

def readU16 (bytes : List UInt8) (offset : ℕ) : UInt16 :=
  UInt16.ofNat (valueAt 2 bytes offset)

def readU32 (bytes : List UInt8) (offset : ℕ) : UInt32 :=
  UInt32.ofNat (valueAt 4 bytes offset)

def bytesU16 (word : UInt16) : List UInt8 := encode 2 word.toNat

def bytesU32 (word : UInt32) : List UInt8 := encode 4 word.toNat

@[simp] theorem length_bytesU16 (word : UInt16) : (bytesU16 word).length = 2 := length_encode ..

@[simp] theorem length_bytesU32 (word : UInt32) : (bytesU32 word).length = 4 := length_encode ..

theorem readU16_append (before after : List UInt8) (word : UInt16) (offset : ℕ)
    (here : offset = before.length) :
    readU16 (before ++ (bytesU16 word ++ after)) offset = word := by
  have bound : word.toNat < 256 ^ 2 := word.toNat_lt
  rw [readU16, bytesU16, valueAt_append before after 2 _ here, Nat.mod_eq_of_lt bound]
  exact UInt16.ofNat_toNat

theorem readU32_append (before after : List UInt8) (word : UInt32) (offset : ℕ)
    (here : offset = before.length) :
    readU32 (before ++ (bytesU32 word ++ after)) offset = word := by
  have bound : word.toNat < 256 ^ 4 := word.toNat_lt
  rw [readU32, bytesU32, valueAt_append before after 4 _ here, Nat.mod_eq_of_lt bound]
  exact UInt32.ofNat_toNat

/-- Two bytes are those of the number they spell. -/
theorem bytesU16_readU16 (high low : UInt8) (rest : List UInt8) :
    bytesU16 (readU16 (high :: low :: rest) 0) = [high, low] := by
  have small : value [high, low] < 2 ^ 16 := Nat.lt_of_lt_of_le (value_lt _) (Nat.le_of_eq (by norm_num))
  have here : valueAt 2 (high :: low :: rest) 0 = value [high, low] := rfl
  rw [readU16, bytesU16, here, UInt16.toNat_ofNat', Nat.mod_eq_of_lt small]
  exact encode_value [high, low]

/-- Four bytes are those of the number they spell. -/
theorem bytesU32_readU32 (a b c d : UInt8) (rest : List UInt8) :
    bytesU32 (readU32 (a :: b :: c :: d :: rest) 0) = [a, b, c, d] := by
  have small : value [a, b, c, d] < 2 ^ 32 :=
    Nat.lt_of_lt_of_le (value_lt _) (Nat.le_of_eq (by norm_num))
  have here : valueAt 4 (a :: b :: c :: d :: rest) 0 = value [a, b, c, d] := rfl
  rw [readU32, bytesU32, here, UInt32.toNat_ofNat', Nat.mod_eq_of_lt small]
  exact encode_value [a, b, c, d]

theorem readU16_within (before after : List UInt8) {inner : List UInt8} {k : ℕ}
    (inside : k + 2 ≤ inner.length) :
    readU16 (before ++ (inner ++ after)) (before.length + k) = readU16 inner k :=
  congrArg UInt16.ofNat (valueAt_within before after inside)

theorem readU32_within (before after : List UInt8) {inner : List UInt8} {k : ℕ}
    (inside : k + 4 ≤ inner.length) :
    readU32 (before ++ (inner ++ after)) (before.length + k) = readU32 inner k :=
  congrArg UInt32.ofNat (valueAt_within before after inside)

theorem readU16_part (bytes : List UInt8) (first : ℕ) {size offset : ℕ} (inside : offset + 2 ≤ size) :
    readU16 ((bytes.drop first).take size) offset = readU16 bytes (first + offset) :=
  congrArg UInt16.ofNat (valueAt_part bytes first inside)

theorem readU32_part (bytes : List UInt8) (first : ℕ) {size offset : ℕ} (inside : offset + 4 ≤ size) :
    readU32 ((bytes.drop first).take size) offset = readU32 bytes (first + offset) :=
  congrArg UInt32.ofNat (valueAt_part bytes first inside)

theorem readU16_drop (bytes : List UInt8) (first offset : ℕ) :
    readU16 (bytes.drop first) offset = readU16 bytes (first + offset) :=
  congrArg UInt16.ofNat (valueAt_drop bytes first 2 offset)

theorem readU32_drop (bytes : List UInt8) (first offset : ℕ) :
    readU32 (bytes.drop first) offset = readU32 bytes (first + offset) :=
  congrArg UInt32.ofNat (valueAt_drop bytes first 4 offset)

end BigEndian
