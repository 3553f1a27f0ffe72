import Mathlib.Algebra.Order.Field.Basic
import Mathlib.Data.Finset.Card
import Mathlib.Data.Finset.Dedup
import Mathlib.Data.Finset.Image
import Mathlib.Data.Finset.Max
import Mathlib.Data.Int.Interval
import Mathlib.Tactic.Linarith
import Mathlib.Tactic.Ring
import WeakNetVideo.Proofs.EstimatorRuns

/-! # The origin of the counters

Loss and jitter of the last two seconds are taken from the values of sequence numbers and timestamps, so
they depend on where the counters of the sender started as soon as a counter wraps inside the window. The
loss is that of another origin exactly when the numbers wrap in gaps of the same width, or in none.
-/

namespace WeakNetVideo

variable {calls : List EstimatorCall} {truth window : List TruePacket} {atUs origin width : ℤ} {numbers : List ℤ}

/-- A received packet with its true sequence number and its true timestamp. -/
structure TruePacket where
  atUs : ℤ
  number : ℤ
  timestamp : ℤ
  bytes : ℕ
deriving DecidableEq, Repr

/-- What is received of a packet when the counters start elsewhere. -/
def TruePacket.sample (number timestamp : ℤ) (packet : TruePacket) : PacketSample :=
  ⟨packet.atUs, UInt16.ofInt (packet.number + number), UInt32.ofInt (packet.timestamp + timestamp), packet.bytes⟩

/-- The same call with other origins of the counters. -/
def EstimatorCall.shift (number : UInt16) (timestamp : UInt32) : EstimatorCall → EstimatorCall
  | .rtpReceived atUs sequence rtpTimestamp bytes =>
    .rtpReceived atUs (sequence + number) (rtpTimestamp + timestamp) bytes
  | call => call

/-- The packets that are not older than two seconds. -/
def recentPackets (truth : List TruePacket) (atUs : ℤ) : List TruePacket :=
  truth.filter fun packet => decide (atUs - statsWindowUs ≤ packet.atUs)

/-- The shifted numbers wrap in a gap: none lies between its ends. -/
def WrapsInGap (origin : ℤ) (numbers : List ℤ) (width : ℤ) : Prop :=
  ∃ low ∈ numbers, ∃ high ∈ numbers, high - low = width ∧ (low + origin) / 65536 < (high + origin) / 65536 ∧
    ∀ number ∈ numbers, number ≤ low ∨ high ≤ number

/-- How often the shifted timestamps wrap from a packet to the next, backwards with the minus sign. -/
def turns (origin : ℤ) (previous current : TruePacket) : ℤ :=
  (current.timestamp + origin) / 2 ^ 32 - (previous.timestamp + origin) / 2 ^ 32

/-! ## Loss -/

/-- All numbers lie within half the numbers there are. -/
def WithinHalf (numbers : List ℤ) : Prop := ∀ left ∈ numbers, ∀ right ∈ numbers, right - left < 32768

instance (numbers : List ℤ) : Decidable (WithinHalf numbers) :=
  @List.decidableBAll _ _ (fun _ => List.decidableBAll _ _) numbers

/-- The distance of the outermost numbers. -/
def Extent (numbers : List ℤ) (width : ℤ) : Prop :=
  ∃ bottom ∈ numbers, ∃ top ∈ numbers, top - bottom = width ∧ ∀ number ∈ numbers, bottom ≤ number ∧ number ≤ top

/-- The distance of the largest and the smallest value of sixteen bits. -/
def Spread (origin : ℤ) (numbers : List ℤ) (width : ℤ) : Prop :=
  ∃ bottom ∈ numbers, ∃ top ∈ numbers, (top + origin) % 65536 - (bottom + origin) % 65536 = width ∧
    ∀ number ∈ numbers, (bottom + origin) % 65536 ≤ (number + origin) % 65536 ∧
      (number + origin) % 65536 ≤ (top + origin) % 65536

theorem extent_unique {other : ℤ} (one : Extent numbers width) (two : Extent numbers other) : width = other := by
  obtain ⟨bottom, bottomIn, top, topIn, rfl, inside⟩ := one
  obtain ⟨bottom', bottomIn', top', topIn', rfl, inside'⟩ := two
  have := inside bottom' bottomIn'
  have := inside top' topIn'
  have := inside' bottom bottomIn
  have := inside' top topIn
  omega

/-- Numbers wrap in one gap only, and it is less than half of them wide. -/
theorem wrapsInGap_unique {other : ℤ} (half : WithinHalf numbers) (one : WrapsInGap origin numbers width)
    (two : WrapsInGap origin numbers other) : width = other := by
  obtain ⟨low, lowIn, high, highIn, rfl, wraps, empty⟩ := one
  obtain ⟨low', lowIn', high', highIn', rfl, wraps', empty'⟩ := two
  have := half low lowIn high' highIn'
  have := half low' lowIn' high highIn
  have := empty low' lowIn'
  have := empty high' highIn'
  have := empty' low lowIn
  have := empty' high highIn
  omega

theorem wrapsInGap_width (half : WithinHalf numbers) (wraps : WrapsInGap origin numbers width) :
    0 < width ∧ width < 32768 := by
  obtain ⟨low, lowIn, high, highIn, rfl, wraps, -⟩ := wraps
  have := half low lowIn high highIn
  omega

/-- Where numbers wrap, the values around the gap are the outermost; else the outermost numbers are. -/
theorem spread_cases (half : WithinHalf numbers) (spread : Spread origin numbers width) :
    WrapsInGap origin numbers (65536 - width) ∨ (∀ gap, ¬WrapsInGap origin numbers gap) ∧ Extent numbers width := by
  obtain ⟨bottom, bottomIn, top, topIn, rfl, inside⟩ := spread
  have near := half top topIn bottom bottomIn
  by_cases wraps : (top + origin) / 65536 < (bottom + origin) / 65536
  · refine .inl ⟨top, topIn, bottom, bottomIn, ?_, wraps, ?_⟩
    · omega
    · intro number member
      have := inside number member
      have := half number member bottom bottomIn
      have := half top topIn number member
      omega
  · have near' := half bottom bottomIn top topIn
    have ordered := (inside bottom bottomIn).2
    have same : ∀ number ∈ numbers, (number + origin) / 65536 = (bottom + origin) / 65536 := by
      intro number member
      have := inside number member
      have := half number member bottom bottomIn
      have := half bottom bottomIn number member
      omega
    refine .inr ⟨?_, bottom, bottomIn, top, topIn, ?_, ?_⟩
    · rintro gap ⟨low, lowIn, high, highIn, -, wraps, -⟩
      have := same low lowIn
      have := same high highIn
      omega
    · have := same top topIn
      omega
    · intro number member
      have := inside number member
      have := same number member
      have := same top topIn
      omega

/-- Two origins spread the numbers equally exactly when they wrap alike. -/
theorem spread_eq_iff {other there : ℤ} (half : WithinHalf numbers) (here : Spread origin numbers width)
    (moved : Spread other numbers there) :
    there = width ↔ ∀ gap, WrapsInGap other numbers gap ↔ WrapsInGap origin numbers gap := by
  rcases spread_cases half here with wraps | ⟨none, extent⟩ <;>
    rcases spread_cases half moved with wraps' | ⟨none', extent'⟩
  · constructor
    · rintro rfl gap
      constructor
      · intro gapHere
        rwa [wrapsInGap_unique half gapHere wraps']
      · intro gapHere
        rwa [wrapsInGap_unique half gapHere wraps]
    · intro alike
      have := wrapsInGap_unique half ((alike _).mp wraps') wraps
      omega
  · have bounds := wrapsInGap_width half wraps
    obtain ⟨bottom, bottomIn, top, topIn, rfl, -⟩ := extent'
    have := half bottom bottomIn top topIn
    apply iff_of_false
    · omega
    · exact fun alike => none' _ ((alike _).mpr wraps)
  · have bounds := wrapsInGap_width half wraps'
    obtain ⟨bottom, bottomIn, top, topIn, rfl, -⟩ := extent
    have := half bottom bottomIn top topIn
    apply iff_of_false
    · omega
    · exact fun alike => none _ ((alike _).mp wraps')
  · apply iff_of_true
    · exact extent_unique extent' extent
    · exact fun gap => iff_of_false (none' gap) (none gap)

private theorem min_word (left right : UInt16) : min left right = if left ≤ right then left else right := rfl

private theorem max_word (left right : UInt16) : max left right = if left ≤ right then right else left := rfl

private theorem toNat_min_word (left right : UInt16) : (min left right).toNat = min left.toNat right.toNat := by
  rw [min_word, min_def, apply_ite UInt16.toNat]
  exact if_congr UInt16.le_iff_toNat_le rfl rfl

private theorem toNat_max_word (left right : UInt16) : (max left right).toNat = max left.toNat right.toNat := by
  rw [max_word, max_def, apply_ite UInt16.toNat]
  exact if_congr UInt16.le_iff_toNat_le rfl rfl

private theorem smallest_of_foldl (front : UInt16) (sequences : List UInt16) :
    sequences.foldl min front ∈ front :: sequences ∧
      ∀ sequence ∈ front :: sequences, (sequences.foldl min front).toNat ≤ sequence.toNat := by
  induction sequences generalizing front with
  | nil => simp
  | cons next sequences ih =>
    obtain ⟨member, below⟩ := ih (min front next)
    obtain ⟨first, others⟩ := List.forall_mem_cons.mp below
    rw [toNat_min_word] at first
    rw [List.foldl_cons, List.forall_mem_cons, List.forall_mem_cons]
    refine ⟨?_, by omega, by omega, others⟩
    rcases List.mem_cons.mp member with same | member
    · rw [same, min_word]
      split_ifs <;> simp
    · simp [member]

private theorem largest_of_foldl (front : UInt16) (sequences : List UInt16) :
    sequences.foldl max front ∈ front :: sequences ∧
      ∀ sequence ∈ front :: sequences, sequence.toNat ≤ (sequences.foldl max front).toNat := by
  induction sequences generalizing front with
  | nil => simp
  | cons next sequences ih =>
    obtain ⟨member, above⟩ := ih (max front next)
    obtain ⟨first, others⟩ := List.forall_mem_cons.mp above
    rw [toNat_max_word] at first
    rw [List.foldl_cons, List.forall_mem_cons, List.forall_mem_cons]
    refine ⟨?_, by omega, by omega, others⟩
    rcases List.mem_cons.mp member with same | member
    · rw [same, max_word]
      split_ifs <;> simp
    · simp [member]

private theorem value_word (number : ℤ) : ((UInt16.ofInt number).toNat : ℤ) = number % 65536 := by
  simp only [UInt16.ofInt, UInt16.toNat_ofNat']
  omega

/-- Within half of the numbers, sixteen bits tell them apart. -/
private theorem distinct_of_half (half : WithinHalf numbers) :
    (numbers.map fun number => UInt16.ofInt (number + origin)).dedup.length = numbers.toFinset.card := by
  have injective : Set.InjOn (fun number => UInt16.ofInt (number + origin)) numbers.toFinset := by
    intro left leftIn right rightIn same
    have values := congrArg (fun word => (UInt16.toNat word : ℤ)) same
    simp only [value_word] at values
    have := half left (List.mem_toFinset.mp leftIn) right (List.mem_toFinset.mp rightIn)
    have := half right (List.mem_toFinset.mp rightIn) left (List.mem_toFinset.mp leftIn)
    omega
  rw [← List.card_toFinset, ← Finset.card_image_of_injOn injective]
  congr 1
  ext word
  simp

/-- As many numbers as there are fit in their spread. -/
private theorem card_le_spread (half : WithinHalf numbers) (spread : Spread origin numbers width) :
    (numbers.toFinset.card : ℤ) ≤ width + 1 := by
  obtain ⟨bottom, -, top, topIn, rfl, inside⟩ := spread
  have injective : Set.InjOn (fun number => (number + origin) % 65536) numbers.toFinset := by
    intro left leftIn right rightIn same
    have := half left (List.mem_toFinset.mp leftIn) right (List.mem_toFinset.mp rightIn)
    have := half right (List.mem_toFinset.mp rightIn) left (List.mem_toFinset.mp leftIn)
    simp only at same
    omega
  have fits := Finset.card_le_card_of_injOn _ (t := Finset.Icc ((bottom + origin) % 65536) ((top + origin) % 65536))
    (fun number member => Finset.mem_coe.mpr (Finset.mem_Icc.mpr (inside number (List.mem_toFinset.mp member))))
    injective
  have := inside top topIn
  rw [Int.card_Icc] at fits
  omega

/-- The values that the fold over some numbers finds are as far apart as the numbers are spread. -/
private theorem spread_of_foldl {front : ℤ} (member : front ∈ numbers) :
    let words := numbers.map fun number => UInt16.ofInt (number + origin)
    let lowest := words.foldl min (UInt16.ofInt (front + origin))
    let highest := words.foldl max (UInt16.ofInt (front + origin))
    Spread origin numbers (highest.toNat - lowest.toNat) ∧ lowest.toNat ≤ highest.toNat := by
  intro words lowest highest
  have word : ∀ number ∈ numbers, UInt16.ofInt (number + origin) ∈ words := fun number => List.mem_map_of_mem
  obtain ⟨lowIn, below⟩ := smallest_of_foldl (UInt16.ofInt (front + origin)) words
  obtain ⟨highIn, above⟩ := largest_of_foldl (UInt16.ofInt (front + origin)) words
  rw [List.forall_mem_cons] at below above
  obtain ⟨bottom, bottomIn, bottomIs⟩ := List.mem_map.mp
    ((List.mem_cons.mp lowIn).elim (fun same => by rw [same]; exact word front member) id)
  obtain ⟨top, topIn, topIs⟩ := List.mem_map.mp
    ((List.mem_cons.mp highIn).elim (fun same => by rw [same]; exact word front member) id)
  refine ⟨⟨bottom, bottomIn, top, topIn, ?_, ?_⟩, Nat.le_trans below.1 above.1⟩
  · rw [← value_word, ← value_word, bottomIs, topIs]
  · intro number one
    have low := below.2 _ (word number one)
    have high := above.2 _ (word number one)
    rw [← bottomIs] at low
    rw [← topIs] at high
    have lowValue := value_word (bottom + origin)
    have highValue := value_word (top + origin)
    have value := value_word (number + origin)
    omega

/-- The counter of 32 bits counts the values from the smallest to the largest. -/
private theorem toNat_expected {lowest highest : UInt16} (ordered : lowest.toNat ≤ highest.toNat) :
    (highest.toUInt32 - lowest.toUInt32 + 1).toNat = highest.toNat - lowest.toNat + 1 := by
  have bound := highest.toNat_lt
  rw [UInt32.toNat_add, UInt32.toNat_sub, UInt16.toNat_toUInt32, UInt16.toNat_toUInt32, UInt32.toNat_one]
  omega

/-- The percentage of what is missing between the smallest and the largest value. -/
private theorem percent_of_extremes {lowest highest : UInt16} {received : ℕ} (ordered : lowest.toNat ≤ highest.toNat)
    (fits : (received : ℤ) ≤ (highest.toNat : ℤ) - lowest.toNat + 1) :
    let expected := highest.toUInt32 - lowest.toUInt32 + 1
    (if expected = 0 ∨ received > expected.toNat then 0
      else ((expected - UInt32.ofNat received).toNat * 100 / expected.toNat : ℚ)) =
        (((highest.toNat : ℤ) - lowest.toNat : ℤ) + 1 - received) * 100 /
          (((highest.toNat : ℤ) - lowest.toNat : ℤ) + 1) := by
  intro expected
  have count : expected.toNat = highest.toNat - lowest.toNat + 1 := toNat_expected ordered
  have bound := highest.toNat_lt
  have counted : ¬(expected = 0 ∨ received > expected.toNat) := by
    rw [← UInt32.toNat_inj, count, UInt32.toNat_zero]
    omega
  have lost : (expected - UInt32.ofNat received).toNat = highest.toNat - lowest.toNat + 1 - received := by
    rw [UInt32.toNat_sub, count, UInt32.toNat_ofNat']
    omega
  rw [if_neg counted, lost, count]
  rw [Nat.cast_sub (by omega), Nat.cast_add, Nat.cast_sub ordered]
  push_cast
  rfl

/-- Loss and values: the numbers there are against the spread of their values. -/
private theorem localLossPercent_of_numbers (timestamp : ℤ) (half : WithinHalf (window.map TruePacket.number))
    (several : 2 ≤ window.length) :
    ∃ width, Spread origin (window.map TruePacket.number) width ∧
      localLossPercent (window.map (TruePacket.sample origin timestamp)) =
        (width + 1 - (window.map TruePacket.number).toFinset.card) * 100 / (width + 1) := by
  obtain ⟨front, next, rest, rfl⟩ : ∃ front next rest, window = front :: next :: rest := by
    match window with
    | front :: next :: rest => exact ⟨front, next, rest, rfl⟩
  have words : ((front :: next :: rest).map (TruePacket.sample origin timestamp)).map PacketSample.sequence =
      ((front :: next :: rest).map TruePacket.number).map fun number => UInt16.ofInt (number + origin) := by
    rw [List.map_map, List.map_map]
    rfl
  have frontIn : front.number ∈ (front :: next :: rest).map TruePacket.number := List.mem_cons_self
  obtain ⟨spread, ordered⟩ := @spread_of_foldl origin _ _ frontIn
  have fits := card_le_spread half spread
  refine ⟨_, spread, ?_⟩
  rw [← distinct_of_half half] at fits ⊢
  rw [List.map_cons, List.map_cons, localLossPercent, ← List.map_cons, ← List.map_cons, words]
  exact percent_of_extremes ordered fits

/-- Percentages of two spreads are equal only for equal spreads. -/
private theorem percent_injective {left right : ℤ} {received : ℕ} (some : 0 < received)
    (leftFits : (received : ℤ) ≤ left) (rightFits : (received : ℤ) ≤ right) :
    ((left : ℚ) - received) * 100 / left = ((right : ℚ) - received) * 100 / right ↔ left = right := by
  have leftPos : (0 : ℚ) < left := by exact_mod_cast lt_of_lt_of_le (Int.natCast_pos.mpr some) leftFits
  have rightPos : (0 : ℚ) < right := by exact_mod_cast lt_of_lt_of_le (Int.natCast_pos.mpr some) rightFits
  have somePos : (0 : ℚ) < received := by exact_mod_cast some
  rw [div_eq_div_iff leftPos.ne' rightPos.ne']
  constructor
  · intro same
    have scaled : (received : ℚ) * left = received * right := by linarith
    exact_mod_cast mul_left_cancel₀ somePos.ne' scaled
  · rintro rfl
    rfl

/-- Fewer than two packets show no loss and no wrap. -/
private theorem few_packets (few : window.length < 2) (origin timestamp : ℤ) :
    localLossPercent (window.map (TruePacket.sample origin timestamp)) = 0 ∧
      ∀ gap, ¬WrapsInGap origin (window.map TruePacket.number) gap := by
  match window with
  | [] => exact ⟨rfl, by simp [WrapsInGap]⟩
  | [packet] => exact ⟨rfl, by simp [WrapsInGap]⟩

/-- The loss of two origins is the same exactly when the numbers wrap alike. -/
theorem localLossPercent_iff {other : ℤ} (timestamp timestamp' : ℤ)
    (half : WithinHalf (window.map TruePacket.number)) :
    localLossPercent (window.map (TruePacket.sample other timestamp')) =
        localLossPercent (window.map (TruePacket.sample origin timestamp)) ↔
      ∀ gap, WrapsInGap other (window.map TruePacket.number) gap ↔
        WrapsInGap origin (window.map TruePacket.number) gap := by
  rcases Nat.lt_or_ge window.length 2 with few | several
  · obtain ⟨loss, none⟩ := few_packets few origin timestamp
    obtain ⟨loss', none'⟩ := few_packets few other timestamp'
    exact iff_of_true (loss'.trans loss.symm) fun gap => iff_of_false (none' gap) (none gap)
  · obtain ⟨width, here, loss⟩ := localLossPercent_of_numbers timestamp half several
    obtain ⟨there, moved, loss'⟩ := localLossPercent_of_numbers timestamp' half several
    have fits := card_le_spread half here
    have fits' := card_le_spread half moved
    have some : 0 < (window.map TruePacket.number).toFinset.card := by
      obtain ⟨packet, member⟩ := List.exists_mem_of_length_pos (Nat.lt_of_lt_of_le Nat.zero_lt_two several)
      exact Finset.card_pos.mpr ⟨_, List.mem_toFinset.mpr (List.mem_map_of_mem member)⟩
    rw [← spread_eq_iff half here moved, loss, loss']
    have injective := percent_injective some fits' fits
    push_cast at injective
    rw [injective, add_left_inj]

/-- Every number between two of some numbers is one of them. -/
def GapFree (numbers : List ℤ) : Prop :=
  ∀ left ∈ numbers, ∀ right ∈ numbers, ∀ number, left ≤ number → number ≤ right → number ∈ numbers

private theorem card_of_gapFree (free : GapFree numbers) (extent : Extent numbers width) :
    (numbers.toFinset.card : ℤ) = width + 1 := by
  obtain ⟨bottom, bottomIn, top, topIn, rfl, inside⟩ := extent
  have all : numbers.toFinset = Finset.Icc bottom top := by
    ext number
    rw [List.mem_toFinset, Finset.mem_Icc]
    exact ⟨inside number, fun between => free bottom bottomIn top topIn number between.1 between.2⟩
  have ordered := (inside bottom bottomIn).2
  rw [all, Int.card_Icc]
  omega

private theorem card_le_half (half : WithinHalf numbers) : numbers.toFinset.card ≤ 32768 := by
  rcases numbers.toFinset.eq_empty_or_nonempty with none | some
  · rw [none, Finset.card_empty]
    exact Nat.zero_le _
  · obtain ⟨bottom, bottomIn, below⟩ := numbers.toFinset.exists_min_image id some
    have inside : numbers.toFinset ⊆ Finset.Ico bottom (bottom + 32768) := by
      intro number member
      have near := half bottom (List.mem_toFinset.mp bottomIn) number (List.mem_toFinset.mp member)
      exact Finset.mem_Ico.mpr ⟨below number member, by omega⟩
    have fits := Finset.card_le_card inside
    rwa [Int.card_Ico, add_sub_cancel_left] at fits

/-- Without a gap there is no loss, unless the numbers wrap. -/
theorem localLossPercent_of_gapFree (timestamp : ℤ) (half : WithinHalf (window.map TruePacket.number))
    (free : GapFree (window.map TruePacket.number)) :
    localLossPercent (window.map (TruePacket.sample origin timestamp)) = 0 ↔
      ∀ gap, ¬WrapsInGap origin (window.map TruePacket.number) gap := by
  rcases Nat.lt_or_ge window.length 2 with few | several
  · exact iff_of_true (few_packets few origin timestamp).1 (few_packets few origin timestamp).2
  · obtain ⟨width, here, loss⟩ := localLossPercent_of_numbers timestamp half several
    rw [loss]
    rcases spread_cases half here with wraps | ⟨none, extent⟩
    · have bounds := wrapsInGap_width half wraps
      have few := card_le_half half
      refine iff_of_false ?_ fun none => none _ wraps
      apply ne_of_gt
      have missing : (0 : ℚ) < width + 1 - (window.map TruePacket.number).toFinset.card := by
        rw [sub_pos]
        exact_mod_cast (by omega : ((window.map TruePacket.number).toFinset.card : ℤ) < width + 1)
      have wide : (0 : ℚ) < width + 1 := by exact_mod_cast (by omega : 0 < width + 1)
      positivity
    · apply iff_of_true ?_ none
      have all : ((window.map TruePacket.number).toFinset.card : ℚ) = width + 1 := by
        exact_mod_cast card_of_gapFree free extent
      rw [all, sub_self, zero_mul, zero_div]

/-! ## Jitter -/

/-- How much longer a packet takes than the one before it, by the true timestamps. -/
def delaySeconds (previous current : TruePacket) : ℚ :=
  ((current.atUs - previous.atUs : ℤ) / 1000000 - (current.timestamp - previous.timestamp : ℤ) / videoClockRate)

/-- What a wrap of the timestamps adds, in seconds. -/
def wrapSeconds : ℚ := 2 ^ 32 / videoClockRate

private theorem transit_sample (number timestamp : ℤ) (packet : TruePacket) :
    (packet.sample number timestamp).transit =
      packet.atUs / 1000000 - (packet.timestamp + timestamp : ℤ) / videoClockRate +
        wrapSeconds * ((packet.timestamp + timestamp) / 2 ^ 32 : ℤ) := by
  have value : (((UInt32.ofInt (packet.timestamp + timestamp)).toNat : ℤ) : ℚ) =
      (packet.timestamp + timestamp : ℤ) - 2 ^ 32 * ((packet.timestamp + timestamp) / 2 ^ 32 : ℤ) := by
    have words : ((UInt32.ofInt (packet.timestamp + timestamp)).toNat : ℤ) =
        (packet.timestamp + timestamp) - 2 ^ 32 * ((packet.timestamp + timestamp) / 2 ^ 32) := by
      simp only [UInt32.ofInt, UInt32.toNat_ofNat']
      omega
    rw [words]
    push_cast
    rfl
  rw [Int.cast_natCast] at value
  rw [PacketSample.transit, TruePacket.sample, value, wrapSeconds]
  ring

/-- The measured difference is the true one and a wrap for every turn. -/
theorem transit_sub (number timestamp : ℤ) (previous current : TruePacket) :
    (current.sample number timestamp).transit - (previous.sample number timestamp).transit =
      delaySeconds previous current + wrapSeconds * turns timestamp previous current := by
  rw [transit_sample, transit_sample, delaySeconds, turns]
  push_cast
  ring

/-- Timestamps that turn alike from packet to packet show the same jitter. -/
private theorem jitterFrom_alike {number number' timestamp timestamp' : ℤ} (previous : TruePacket) (jitter : ℚ)
    (alike : (previous :: window).IsChain fun previous current =>
      turns timestamp' previous current = turns timestamp previous current) :
    jitterFrom (previous.sample number' timestamp') jitter (window.map (TruePacket.sample number' timestamp')) =
      jitterFrom (previous.sample number timestamp) jitter (window.map (TruePacket.sample number timestamp)) := by
  induction window generalizing previous jitter with
  | nil => rfl
  | cons current window ih =>
    obtain ⟨first, rest⟩ := List.isChain_cons_cons.mp alike
    rw [List.map_cons, List.map_cons, jitterFrom, jitterFrom, transit_sub, transit_sub, first]
    exact ih current _ rest

/-- Neighbours of a window: in order within two seconds, the timestamps nearer than half of them, and not
back by so much that a wrap could hide behind the two seconds. -/
def Neighbours (previous current : TruePacket) : Prop :=
  0 ≤ current.atUs - previous.atUs ∧ current.atUs - previous.atUs ≤ statsWindowUs ∧
    current.timestamp - previous.timestamp < 2 ^ 31 ∧ previous.timestamp - current.timestamp < 2 ^ 31 - 180000

private theorem turns_cases {timestamp : ℤ} {previous current : TruePacket} (near : Neighbours previous current)
    (turned : turns timestamp previous current ≠ 0) :
    turns timestamp previous current = 1 ∨
      turns timestamp previous current = -1 ∧ current.timestamp - previous.timestamp ≤ 0 := by
  obtain ⟨-, -, ahead, back⟩ := near
  rw [turns] at *
  omega

instance (previous current : TruePacket) : Decidable (Neighbours previous current) :=
  inferInstanceAs (Decidable (_ ∧ _ ∧ _ ∧ _))

/-- A wrap makes a difference larger. -/
private theorem delay_lt_wrapped {timestamp : ℤ} {previous current : TruePacket} (near : Neighbours previous current)
    (turned : turns timestamp previous current ≠ 0) :
    |delaySeconds previous current| <
      |delaySeconds previous current + wrapSeconds * turns timestamp previous current| := by
  have direction := turns_cases near turned
  obtain ⟨ordered, recent, ahead, back⟩ := near
  rw [delaySeconds, wrapSeconds, videoClockRate]
  generalize current.atUs - previous.atUs = elapsed at *
  have orderedQ : (0 : ℚ) ≤ elapsed := by exact_mod_cast ordered
  have recentQ : (elapsed : ℚ) ≤ 2000000 := by exact_mod_cast recent
  have aheadQ : ((current.timestamp - previous.timestamp : ℤ) : ℚ) < 2 ^ 31 := by exact_mod_cast ahead
  have backQ : -(2 ^ 31 - 180000 : ℚ) < (current.timestamp - previous.timestamp : ℤ) := by
    exact_mod_cast (by omega : -(2 ^ 31 - 180000 : ℤ) < current.timestamp - previous.timestamp)
  rcases direction with forward | ⟨backward, notAhead⟩
  · rw [forward]
    push_cast at *
    apply lt_of_lt_of_le ?_ (le_abs_self _)
    rw [abs_lt]
    constructor <;> linarith
  · have notAheadQ : ((current.timestamp - previous.timestamp : ℤ) : ℚ) ≤ 0 := by exact_mod_cast notAhead
    rw [backward]
    push_cast at *
    apply lt_of_lt_of_le ?_ (neg_le_abs _)
    rw [abs_lt]
    constructor <;> linarith

/-- Timestamps that turn somewhere show more jitter than timestamps that do not. -/
private theorem jitterFrom_wrapped {number number' timestamp timestamp' : ℤ} (previous : TruePacket)
    {jitter jitter' : ℚ} (near : (previous :: window).IsChain Neighbours)
    (straight : (previous :: window).IsChain fun previous current => turns timestamp previous current = 0)
    (notLess : jitter ≤ jitter')
    (turned : jitter < jitter' ∨
      ¬(previous :: window).IsChain fun previous current => turns timestamp' previous current = 0) :
    jitterFrom (previous.sample number timestamp) jitter (window.map (TruePacket.sample number timestamp)) <
      jitterFrom (previous.sample number' timestamp') jitter'
        (window.map (TruePacket.sample number' timestamp')) := by
  induction window generalizing previous jitter jitter' with
  | nil => exact turned.elim id fun turned => absurd (.singleton _) turned
  | cons current window ih =>
    obtain ⟨nearFirst, nearRest⟩ := List.isChain_cons_cons.mp near
    obtain ⟨straightFirst, straightRest⟩ := List.isChain_cons_cons.mp straight
    rw [List.map_cons, List.map_cons, jitterFrom, jitterFrom, transit_sub, transit_sub, straightFirst,
      Int.cast_zero, mul_zero, add_zero]
    rw [List.isChain_cons_cons] at turned
    by_cases first : turns timestamp' previous current = 0
    · rw [first, Int.cast_zero, mul_zero, add_zero]
      apply ih current nearRest straightRest
      · linarith
      · rcases turned with less | turned
        · exact .inl (by linarith)
        · exact .inr fun rest => turned ⟨first, rest⟩
    · have larger := delay_lt_wrapped nearFirst first
      apply ih current nearRest straightRest
      · linarith
      · exact .inl (by linarith)

private theorem localJitterMs_few (number timestamp : ℤ) (few : window.length < 3) :
    localJitterMs (window.map (TruePacket.sample number timestamp)) = 0 := by
  match window with
  | [] | [_] | [_, _] => rfl

/-- The timestamps of a window do not wrap from packet to packet. -/
def Straight (origin : ℤ) (window : List TruePacket) : Prop :=
  window.IsChain fun previous current => turns origin previous current = 0

instance (origin : ℤ) (window : List TruePacket) : Decidable (Straight origin window) :=
  inferInstanceAs (Decidable (List.IsChain _ _))

theorem localJitterMs_alike {number number' timestamp timestamp' : ℤ}
    (alike : window.IsChain fun previous current =>
      turns timestamp' previous current = turns timestamp previous current) :
    localJitterMs (window.map (TruePacket.sample number' timestamp')) =
      localJitterMs (window.map (TruePacket.sample number timestamp)) := by
  match window with
  | [] | [_] | [_, _] => rfl
  | first :: second :: third :: rest => exact jitterFrom_alike first 0 alike

theorem localJitterMs_wrapped {number number' timestamp timestamp' : ℤ} (several : 3 ≤ window.length)
    (near : window.IsChain Neighbours) (straight : Straight timestamp window)
    (turned : ¬Straight timestamp' window) :
    localJitterMs (window.map (TruePacket.sample number timestamp)) <
      localJitterMs (window.map (TruePacket.sample number' timestamp')) := by
  match window with
  | first :: second :: third :: rest =>
    have grows : jitterFrom (first.sample number timestamp) 0
          ((second :: third :: rest).map (TruePacket.sample number timestamp)) <
        jitterFrom (first.sample number' timestamp') 0
          ((second :: third :: rest).map (TruePacket.sample number' timestamp')) :=
      jitterFrom_wrapped first near straight (le_refl 0) (.inr turned)
    simpa only [localJitterMs, List.map_cons] using grows

/-! ## Two origins of a run -/

private theorem sample_shift (number : UInt16) (timestamp : UInt32) (packet : TruePacket) :
    packet.sample number.toNat timestamp.toNat =
      { packet.sample 0 0 with
        sequence := (packet.sample 0 0).sequence + number
        rtpTimestamp := (packet.sample 0 0).rtpTimestamp + timestamp } := by
  have sequence : UInt16.ofInt number.toNat = number := by
    have bound := number.toNat_lt
    rw [← UInt16.toNat_inj, UInt16.ofInt, UInt16.toNat_ofNat']
    omega
  have rtpTimestamp : UInt32.ofInt timestamp.toNat = timestamp := by
    have bound := timestamp.toNat_lt
    rw [← UInt32.toNat_inj, UInt32.ofInt, UInt32.toNat_ofNat']
    omega
  rw [TruePacket.sample, TruePacket.sample, UInt16.ofInt_add, UInt32.ofInt_add, sequence, rtpTimestamp,
    add_zero, add_zero]

/-- The same packets are received with the moved counters. -/
private theorem receivedSamples_shift (seen : receivedSamples calls = truth.map (TruePacket.sample 0 0))
    (number : UInt16) (timestamp : UInt32) :
    receivedSamples (calls.map (EstimatorCall.shift number timestamp)) =
      truth.map (TruePacket.sample number.toNat timestamp.toNat) := by
  have moved : truth.map (TruePacket.sample number.toNat timestamp.toNat) =
      (receivedSamples calls).map fun sample =>
        { sample with sequence := sample.sequence + number, rtpTimestamp := sample.rtpTimestamp + timestamp } := by
    rw [seen, List.map_map]
    exact List.map_congr_left fun packet _ => sample_shift number timestamp packet
  rw [moved, receivedSamples, receivedSamples, List.filterMap_map, List.map_filterMap]
  congr 1
  funext call
  cases call <;> rfl

private theorem callsInOrder_shift (ordered : CallsInOrder calls atUs) (number : UInt16) (timestamp : UInt32) :
    CallsInOrder (calls.map (EstimatorCall.shift number timestamp)) atUs := by
  have times : (calls.map (EstimatorCall.shift number timestamp)).map EstimatorCall.atUs =
      calls.map EstimatorCall.atUs := by
    rw [List.map_map]
    exact List.map_congr_left fun call _ => by cases call <;> rfl
  rwa [CallsInOrder, times]

/-- What a snapshot measures. -/
private theorem window_of_run {number timestamp : ℤ} (ordered : CallsInOrder calls atUs)
    (seen : receivedSamples calls = truth.map (TruePacket.sample number timestamp)) :
    ((estimatorAfter calls).trimmed atUs).receivedPackets =
      (recentPackets truth atUs).map (TruePacket.sample number timestamp) := by
  rw [receivedPackets_trimmed ordered, seen, List.filter_map]
  rfl

/-- Moving the origins of the counters keeps the loss exactly when the numbers wrap alike in the window, and
the jitter when the timestamps turn alike. If they turn in one of the two runs only, the jitter is another.
Without a gap there is no loss, unless the numbers wrap. -/
theorem localQuality_moved (seen : receivedSamples calls = truth.map (TruePacket.sample 0 0))
    (ordered : CallsInOrder calls atUs) (number : UInt16) (timestamp : UInt32)
    (half : WithinHalf ((recentPackets truth atUs).map TruePacket.number)) :
    let window := recentPackets truth atUs
    let numbers := window.map TruePacket.number
    let here := ((estimatorAfter calls).trimmed atUs).localQuality
    let there := ((estimatorAfter (calls.map (EstimatorCall.shift number timestamp))).trimmed atUs).localQuality
    (there.lossPercent = here.lossPercent ↔
        ∀ gap, WrapsInGap number.toNat numbers gap ↔ WrapsInGap 0 numbers gap) ∧
      (window.length < 3 ∨ (window.IsChain fun previous current =>
          turns timestamp.toNat previous current = turns 0 previous current) →
        there.jitterMs = here.jitterMs) ∧
      (3 ≤ window.length → window.IsChain Neighbours →
        ¬(Straight timestamp.toNat window ↔ Straight 0 window) → there.jitterMs ≠ here.jitterMs) ∧
      (GapFree numbers → (here.lossPercent = 0 ↔ ∀ gap, ¬WrapsInGap 0 numbers gap)) := by
  intro window numbers here there
  have windowHere := window_of_run ordered seen
  have windowThere := window_of_run (callsInOrder_shift ordered number timestamp)
    (receivedSamples_shift seen number timestamp)
  simp only [here, there, NetworkQualityEstimator.localQuality, windowHere, windowThere]
  refine ⟨localLossPercent_iff _ _ half, ?_, ?_, fun free => localLossPercent_of_gapFree _ half free⟩
  · rintro (few | alike)
    · rw [localJitterMs_few _ _ few, localJitterMs_few _ _ few]
    · exact localJitterMs_alike alike
  · intro several near differ
    by_cases straight : Straight 0 window
    · exact (localJitterMs_wrapped several near straight fun moved => differ (iff_of_true moved straight)).ne'
    · have moved : Straight timestamp.toNat window := by
        by_contra turned
        exact differ (iff_of_false turned straight)
      exact (localJitterMs_wrapped several near moved straight).ne

/-- Four packets without a gap whose numbers wrap. -/
def wrappingCalls : List EstimatorCall :=
  [.rtpReceived 0 65534 0 1200, .rtpReceived 10000 65535 900 1200, .rtpReceived 20000 0 1800 1200,
    .rtpReceived 30000 1 2700 1200]

def wrappingTruth : List TruePacket :=
  [⟨0, 65534, 0, 1200⟩, ⟨10000, 65535, 900, 1200⟩, ⟨20000, 65536, 1800, 1200⟩, ⟨30000, 65537, 2700, 1200⟩]

/-- Nearly everything counts as lost, and nothing when the same packets are numbered from zero. -/
theorem wrapping_not_unchanged :
    ((estimatorAfter wrappingCalls).trimmed 30000).localQuality.lossPercent = 6553200 / 65536 ∧
      ((estimatorAfter (wrappingCalls.map (EstimatorCall.shift 2 0))).trimmed 30000).localQuality.lossPercent = 0 := by
  decide +kernel

/-- Timestamps that are moved so that they wrap show jitter where there is none. -/
theorem localQuality_moved_timestamps :
    ((estimatorAfter (wrappingCalls.map (EstimatorCall.shift 0 4294966296))).trimmed 30000).localQuality.jitterMs ≠
      ((estimatorAfter wrappingCalls).trimmed 30000).localQuality.jitterMs := by
  have moved := @localQuality_moved wrappingCalls wrappingTruth 30000 (by decide) (by decide) 0 4294966296
    (by decide)
  exact moved.2.2.1 (by decide) (by decide) (by decide)

end WeakNetVideo
