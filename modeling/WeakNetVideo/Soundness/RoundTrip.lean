import Mathlib.Data.Rat.Floor
import Mathlib.Tactic.Linarith
import Mathlib.Tactic.NormNum
import Mathlib.Tactic.Ring
import WeakNetVideo.Model.NetworkQualityEstimator

/-! # Round trip times

The other side echoes a stamp of the system clock, and the estimator subtracts it from a reading of the
steady clock. So the round trip time is the true one exactly when the two clocks differ by a multiple of
65536 seconds, the period of the stamps, up to what the tolerance leaves beside the rounding.
-/

namespace WeakNetVideo

variable {offset sentAt held roundTrip : ℚ} {atUs : ℤ}

/-- The middle 32 bits of the NTP time at a time of the system clock, in seconds. -/
def middleNtp (time : ℚ) : UInt32 := UInt32.ofInt (⌊2 ^ 32 * (time + 2208988800)⌋ / 2 ^ 16)

/-- What `now_us` reads at a time of the system clock that is ahead of the steady clock by an offset. -/
def steadyUs (offset time : ℚ) : ℤ := ⌊1000000 * (time - offset)⌋

/-- With such clocks every report block shows the true round trip time, up to a tenth of a millisecond: the
sender report is stamped at `sentAt`, the other side holds it for `held`, told in units of 1/65536 s, and
its report arrives when both have gone by and the round trip. -/
def TrueRoundTrips (offset : ℚ) : Prop :=
  ∀ (e : NetworkQualityEstimator) (sentAt held roundTrip : ℚ) (fractionLost : UInt8)
    (jitterRtpTicks delaySinceLastSr : UInt32),
    let atUs := steadyUs offset (sentAt + held + roundTrip)
    0 ≤ held → |delaySinceLastSr.toNat - 65536 * held| < 1 → 0 ≤ roundTrip → roundTrip ≤ 59 →
      middleNtp sentAt ≠ 0 → 0 ≤ atUs → atUs < 2 ^ 63 →
        ∀ report ∈ (e.onReceiverReport atUs fractionLost jitterRtpTicks (middleNtp sentAt)
          delaySinceLastSr).remoteReport, |report.rttMs - 1000 * roundTrip| ≤ 1 / 10

/-! ## The stamps -/

private theorem shiftLeft_or {high low : ℕ} (fits : low < 2 ^ 32) : high <<< 32 ||| low = high * 2 ^ 32 + low := by
  rw [← Nat.shiftLeft_add_eq_or_of_lt fits, Nat.shiftLeft_eq]

private theorem middle_bits (high low : ℕ) :
    (high % 2 ^ 32 * 2 ^ 32 + low) / 2 ^ 16 % 2 ^ 32 % 2 ^ 32 = (65536 * high + low / 65536) % 2 ^ 32 := by
  have split : (high % 2 ^ 32 * 2 ^ 32 + low) / 2 ^ 16 = 65536 * (high % 2 ^ 32) + low / 65536 := by omega
  rw [split]
  omega

/-- The arithmetic of the compact time: seconds in the upper half, the fraction in the lower one. -/
private theorem compact_arithmetic (clock : ℕ) :
    ((((clock / 1000000 + 2208988800) % 2 ^ 64) <<< 32 % 2 ^ 64 |||
      (clock % 1000000) <<< 32 % 2 ^ 64 / 1000000) >>> 16 &&& 4294967295) % 2 ^ 32 =
        (1024 * clock / 15625 + 65536 * 2208988800) % 2 ^ 32 := by
  have seconds : ((clock / 1000000 + 2208988800) % 2 ^ 64) <<< 32 % 2 ^ 64 =
      ((clock / 1000000 + 2208988800) % 2 ^ 32) <<< 32 := by
    rw [Nat.shiftLeft_eq, Nat.shiftLeft_eq]
    omega
  have fraction : (clock % 1000000) <<< 32 % 2 ^ 64 / 1000000 = (clock % 1000000) * 2 ^ 32 / 1000000 := by
    rw [Nat.shiftLeft_eq]
    omega
  have mask : (4294967295 : ℕ) = 2 ^ 32 - 1 := rfl
  rw [seconds, fraction, shiftLeft_or (by omega), mask, Nat.and_two_pow_sub_one_eq_mod, Nat.shiftRight_eq_div_pow,
    middle_bits]
  have units : clock % 1000000 * 2 ^ 32 / 1000000 / 65536 = 1024 * (clock % 1000000) / 15625 := by
    rw [Nat.div_div_eq_div_mul]
    omega
  have whole : 1024 * clock / 15625 = 65536 * (clock / 1000000) + 1024 * (clock % 1000000) / 15625 := by omega
  rw [units, whole, Nat.mul_add, Nat.add_right_comm]

/-- The compact time of the steady clock counts 65536 units a second. -/
theorem compactNtp_eq (nonneg : 0 ≤ atUs) (fits : atUs < 2 ^ 63) :
    compactNtp atUs = UInt32.ofInt (1024 * atUs / 15625 + 65536 * 2208988800) := by
  obtain ⟨clock, rfl⟩ : ∃ clock : UInt64, atUs = clock.toNat := by
    refine ⟨UInt64.ofNat atUs.toNat, ?_⟩
    rw [UInt64.toNat_ofNat']
    omega
  have reading : UInt64.ofInt (clock.toNat : ℤ) = clock := by
    have bound := clock.toNat_lt
    rw [← UInt64.toNat_inj, UInt64.ofInt, UInt64.toNat_ofNat']
    omega
  have arithmetic := compact_arithmetic clock.toNat
  have right : (UInt32.ofInt (1024 * (clock.toNat : ℤ) / 15625 + 65536 * 2208988800)).toNat =
      (1024 * clock.toNat / 15625 + 65536 * 2208988800) % 2 ^ 32 := by
    have same : (1024 * (clock.toNat : ℤ) / 15625 + 65536 * 2208988800) =
        ((1024 * clock.toNat / 15625 + 65536 * 2208988800 : ℕ) : ℤ) := by omega
    rw [same, UInt32.ofInt, UInt32.toNat_ofNat']
    omega
  rw [← UInt32.toNat_inj, compactNtp, reading, right, ← arithmetic]
  simp only [ntpUnixEpochDelta, UInt64.toNat_toUInt32, UInt64.toNat_and, UInt64.toNat_shiftRight,
    UInt64.toNat_or, UInt64.toNat_shiftLeft, UInt64.toNat_add, UInt64.toNat_div, UInt64.toNat_mod]
  rfl

/-- A stamp of the system clock counts units of 1/65536 s as well. -/
theorem middleNtp_spec (time : ℚ) : ∃ stamp : ℤ, middleNtp time = UInt32.ofInt stamp ∧
    (stamp : ℚ) ≤ 65536 * (time + 2208988800) ∧ 65536 * (time + 2208988800) < stamp + 1 := by
  have below := Int.floor_le (2 ^ 32 * (time + 2208988800))
  have above := Int.lt_floor_add_one (2 ^ 32 * (time + 2208988800))
  refine ⟨_, rfl, ?_⟩
  generalize ⌊2 ^ 32 * (time + 2208988800)⌋ = ntp at *
  have least : ((2 ^ 16 * (ntp / 2 ^ 16) : ℤ) : ℚ) ≤ ntp := by exact_mod_cast (by omega : 2 ^ 16 * (ntp / 2 ^ 16) ≤ ntp)
  have largest : (ntp : ℚ) + 1 ≤ (2 ^ 16 * (ntp / 2 ^ 16 + 1) : ℤ) := by
    exact_mod_cast (by omega : ntp + 1 ≤ 2 ^ 16 * (ntp / 2 ^ 16 + 1))
  push_cast at least largest
  constructor <;> linarith

/-- A reading of the steady clock, in units of 1/65536 s. -/
theorem steadyUs_spec (offset time : ℚ) :
    ((1024 * steadyUs offset time / 15625 : ℤ) : ℚ) ≤ 65536 * (time - offset) ∧
      65536 * (time - offset) < (1024 * steadyUs offset time / 15625 : ℤ) + 15624 / 15625 + 65536 / 1000000 := by
  have below := Int.floor_le (1000000 * (time - offset))
  have above := Int.lt_floor_add_one (1000000 * (time - offset))
  rw [steadyUs]
  generalize ⌊1000000 * (time - offset)⌋ = clock at *
  have least : ((15625 * (1024 * clock / 15625) : ℤ) : ℚ) ≤ (1024 * clock : ℤ) := by
    exact_mod_cast (by omega : 15625 * (1024 * clock / 15625) ≤ 1024 * clock)
  have largest : ((1024 * clock : ℤ) : ℚ) ≤ (15625 * (1024 * clock / 15625) + 15624 : ℤ) := by
    exact_mod_cast (by omega : 1024 * clock ≤ 15625 * (1024 * clock / 15625) + 15624)
  push_cast at least largest
  constructor <;> linarith

/-! ## The difference -/

/-- What the subtraction of the three words leaves, as an integer. -/
def rttUnits (atUs stamp : ℤ) (delaySinceLastSr : UInt32) : ℤ :=
  1024 * atUs / 15625 + 65536 * 2208988800 - stamp - delaySinceLastSr.toNat

private theorem ofInt_sub (left right : ℤ) :
    UInt32.ofInt (left - right) = UInt32.ofInt left - UInt32.ofInt right := by
  rw [Int.sub_eq_add_neg, UInt32.ofInt_add, UInt32.ofInt_neg, ← UInt32.sub_eq_add_neg]

/-- The result is that integer without its multiples of 65536 s, or zero. -/
theorem roundTripMs_eq {stamp : ℤ} {delaySinceLastSr : UInt32} (nonneg : 0 ≤ atUs) (fits : atUs < 2 ^ 63)
    (stamped : UInt32.ofInt stamp ≠ 0) :
    roundTripMs atUs (UInt32.ofInt stamp) delaySinceLastSr =
      if (rttUnits atUs stamp delaySinceLastSr % 2 ^ 32 : ℤ) * 1000 ≤ (60000 * 65536 : ℤ) then
        ((rttUnits atUs stamp delaySinceLastSr % 2 ^ 32 : ℤ) : ℚ) * 1000 / 65536 else 0 := by
  have word : UInt32.ofInt delaySinceLastSr.toNat = delaySinceLastSr := by
    have bound := delaySinceLastSr.toNat_lt
    rw [← UInt32.toNat_inj, UInt32.ofInt, UInt32.toNat_ofNat']
    omega
  have difference : compactNtp atUs - UInt32.ofInt stamp - delaySinceLastSr =
      UInt32.ofInt (rttUnits atUs stamp delaySinceLastSr) := by
    rw [compactNtp_eq nonneg fits, rttUnits, ofInt_sub, ofInt_sub, word]
  have value : ((UInt32.ofInt (rttUnits atUs stamp delaySinceLastSr)).toNat : ℤ) =
      rttUnits atUs stamp delaySinceLastSr % 2 ^ 32 := by
    rw [UInt32.ofInt, UInt32.toNat_ofNat']
    omega
  rw [roundTripMs, if_pos stamped, difference]
  dsimp only
  have same : ((UInt32.ofInt (rttUnits atUs stamp delaySinceLastSr)).toNat : ℚ) =
      (rttUnits atUs stamp delaySinceLastSr % 2 ^ 32 : ℤ) := by
    rw [← value]
    rfl
  have nonneg := Int.emod_nonneg (rttUnits atUs stamp delaySinceLastSr) (by decide : (2 ^ 32 : ℤ) ≠ 0)
  rw [same]
  generalize rttUnits atUs stamp delaySinceLastSr % 2 ^ 32 = units at *
  have nonnegQ : (0 : ℚ) ≤ units := by exact_mod_cast nonneg
  by_cases inside : units * 1000 ≤ 60000 * 65536
  · have insideQ : (units : ℚ) * 1000 ≤ 60000 * 65536 := by exact_mod_cast inside
    rw [if_pos inside, if_neg]
    push Not
    constructor <;> linarith
  · have outsideQ : (60000 * 65536 : ℚ) < units * 1000 := by exact_mod_cast not_le.mp inside
    rw [if_neg inside, if_pos]
    right
    linarith

/-- The difference is the round trip, moved by the offset of the clocks, up to the rounding. -/
private theorem rttUnits_spec {stamp : ℤ} {delaySinceLastSr : UInt32}
    (below : (stamp : ℚ) ≤ 65536 * (sentAt + 2208988800)) (above : 65536 * (sentAt + 2208988800) < stamp + 1)
    (told : |delaySinceLastSr.toNat - 65536 * held| < 1) :
    let units : ℤ := rttUnits (steadyUs offset (sentAt + held + roundTrip)) stamp delaySinceLastSr
    65536 * (roundTrip - offset) - (1 + 15624 / 15625 + 65536 / 1000000) < units ∧
      (units : ℚ) < 65536 * (roundTrip - offset) + 2 := by
  obtain ⟨least, largest⟩ := steadyUs_spec offset (sentAt + held + roundTrip)
  obtain ⟨early, late⟩ := abs_lt.mp told
  rw [rttUnits]
  generalize 1024 * steadyUs offset (sentAt + held + roundTrip) / 15625 = clock at *
  push_cast
  constructor <;> linarith

/-- The offset of the clocks, in units of 1/65536 s and without the period, is as small as the tolerance
allows. -/
def Aligned (offset : ℚ) (period : ℤ) : Prop :=
  -45536 / 10000 ≤ 65536 * (offset - 65536 * period) ∧ 65536 * (offset - 65536 * period) ≤ 4488128 / 1000000

/-- With aligned clocks the result is within a tenth of a millisecond. -/
theorem trueRoundTrips_of_aligned {period : ℤ} (aligned : Aligned offset period) : TrueRoundTrips offset := by
  intro e sentAt held roundTrip fractionLost jitterRtpTicks delaySinceLastSr atUs nonneg told positive short
    stamped started fits report made
  obtain ⟨stamp, word, below, above⟩ := middleNtp_spec sentAt
  obtain ⟨least, largest⟩ := @rttUnits_spec offset sentAt held roundTrip stamp delaySinceLastSr below above told
  obtain ⟨low, high⟩ := aligned
  rw [word] at stamped made
  obtain rfl := Option.mem_some_iff.mp made
  rw [roundTripMs_eq started fits stamped]
  change _ < ((rttUnits atUs stamp delaySinceLastSr : ℤ) : ℚ) at least
  change ((rttUnits atUs stamp delaySinceLastSr : ℤ) : ℚ) < _ at largest
  generalize rttUnits atUs stamp delaySinceLastSr = units at *
  obtain ⟨whole, rfl⟩ : ∃ whole, units = whole - 2 ^ 32 * period := ⟨units + 2 ^ 32 * period, by ring⟩
  push_cast at least largest
  have nearLow : 65536 * roundTrip - 65536 / 10000 ≤ whole := by linarith
  have nearHigh : (whole : ℚ) ≤ 65536 * roundTrip + 65536 / 10000 := by linarith
  have residue : (whole - 2 ^ 32 * period) % 2 ^ 32 = whole % 2 ^ 32 := by omega
  rw [residue]
  have atMost : whole ≤ 65536 * 59 + 7 := by
    exact_mod_cast (by push_cast; linarith : (whole : ℚ) ≤ (65536 * 59 + 7 : ℤ))
  have atLeast : -7 ≤ whole := by exact_mod_cast (by push_cast; linarith : ((-7 : ℤ) : ℚ) ≤ whole)
  rcases le_or_gt 0 whole with counted | rounded
  · rw [Int.emod_eq_of_lt counted (by omega), if_pos (by omega), abs_le]
    constructor <;> linarith
  · -- what rounding has made negative is replaced by zero
    have negative : (whole : ℚ) < 0 := by exact_mod_cast rounded
    rw [if_neg (by omega), abs_le]
    constructor <;> linarith

/-! ## The offset is pinned -/

/-- A number of units that is not a multiple of the period, at most one below. -/
private theorem exists_stamp (units : ℤ) : ∃ stamp : ℤ, UInt32.ofInt stamp ≠ 0 ∧ stamp ≤ units ∧ units ≤ stamp + 1 := by
  by_cases zero : UInt32.ofInt units = 0
  · refine ⟨units - 1, ?_, by omega, by omega⟩
    rw [ofInt_sub, zero]
    decide
  · exact ⟨units, zero, le_refl units, by omega⟩

/-- A round trip of half a minute whose rounding is chosen: how far its reading of the steady clock is into the
microsecond, the stamp into its unit, and the delay from what is told. -/
private theorem aligned_at (trips : TrueRoundTrips offset) {clock : ℤ} {late stamped told : ℚ} (started : 0 ≤ clock)
    (fits : clock < 2 ^ 63) (lateIn : 0 ≤ late ∧ late < 1) (stampedIn : 0 ≤ stamped ∧ stamped < 1)
    (toldIn : -1 < told ∧ told < 1) :
    ∃ period : ℤ, |65536 * (offset - 65536 * period) - ((1024 * clock / 15625 : ℤ) - 65536 * (clock + late) / 1000000 +
      stamped - told)| ≤ 65536 / 10000 := by
  obtain ⟨lateNonneg, lateLess⟩ := lateIn
  obtain ⟨stampedNonneg, stampedLess⟩ := stampedIn
  obtain ⟨toldAbove, toldBelow⟩ := toldIn
  obtain ⟨stamp, nonzero, notAbove, near⟩ :=
    exists_stamp ⌊65536 * (offset + (clock + late) / 1000000 - 30 + 2208988800)⌋
  have floorBelow := Int.floor_le (65536 * (offset + (clock + late) / 1000000 - 30 + 2208988800))
  have floorAbove := Int.lt_floor_add_one (65536 * (offset + (clock + late) / 1000000 - 30 + 2208988800))
  generalize ⌊65536 * (offset + (clock + late) / 1000000 - 30 + 2208988800)⌋ = units at *
  have notAboveQ : (stamp : ℚ) ≤ units := by exact_mod_cast notAbove
  have nearQ : (units : ℚ) ≤ stamp + 1 := by exact_mod_cast near
  obtain ⟨sentAt, sentIs⟩ : ∃ sentAt : ℚ, 65536 * (sentAt + 2208988800) = stamp + stamped :=
    ⟨(stamp + stamped) / 65536 - 2208988800, by ring⟩
  obtain ⟨held, heldIs⟩ : ∃ held : ℚ, 65536 * held = 1 - told := ⟨(1 - told) / 65536, by ring⟩
  obtain ⟨roundTrip, tripIs⟩ : ∃ roundTrip : ℚ, sentAt + held + roundTrip = offset + (clock + late) / 1000000 :=
    ⟨offset + (clock + late) / 1000000 - sentAt - held, by ring⟩
  have sentStamp : middleNtp sentAt = UInt32.ofInt stamp := by
    obtain ⟨other, word, below, above⟩ := middleNtp_spec sentAt
    have notLess : (stamp : ℚ) < (other + 1 : ℤ) := by push_cast; linarith
    have notMore : (other : ℚ) < (stamp + 1 : ℤ) := by push_cast; linarith
    have := Int.cast_lt.mp notLess
    have := Int.cast_lt.mp notMore
    rw [word, (by omega : other = stamp)]
  have reading : steadyUs offset (sentAt + held + roundTrip) = clock := by
    rw [steadyUs, tripIs, Int.floor_eq_iff]
    constructor <;> linarith
  have accurate := trips {} sentAt held roundTrip 0 0 1 (by linarith)
    (by rw [UInt32.toNat_one, Nat.cast_one, abs_lt]; constructor <;> linarith) (by linarith) (by linarith)
    (by rw [sentStamp]; exact nonzero) (by rw [reading]; exact started) (by rw [reading]; exact fits) _ rfl
  rw [reading, sentStamp, roundTripMs_eq started fits nonzero] at accurate
  split_ifs at accurate with inside
  · refine ⟨-(rttUnits clock stamp 1 / 2 ^ 32), ?_⟩
    have units : rttUnits clock stamp 1 % 2 ^ 32 = 1024 * clock / 15625 + 65536 * 2208988800 - stamp - 1 -
        2 ^ 32 * (rttUnits clock stamp 1 / 2 ^ 32) := by
      rw [rttUnits, UInt32.toNat_one]
      omega
    rw [units, abs_le] at accurate
    rw [abs_le]
    push_cast at *
    constructor <;> linarith
  · -- the cut-off hides half a minute
    rw [abs_le] at accurate
    linarith

/-- Every such rounding leaves the same period. -/
private theorem aligned_same {one two : ℤ} {rounding : ℚ} (small : |rounding| ≤ 3)
    (first : |65536 * (offset - 65536 * one)| ≤ 65536 / 10000)
    (second : |65536 * (offset - 65536 * two) - rounding| ≤ 65536 / 10000) : two = one := by
  rw [abs_le] at small first second
  have below : (two : ℚ) < (one + 1 : ℤ) := by push_cast; linarith
  have above : (one : ℚ) < (two + 1 : ℤ) := by push_cast; linarith
  have := Int.cast_lt.mp below
  have := Int.cast_lt.mp above
  omega

private theorem le_of_rests {left right : ℚ} (each : ∀ rest, 0 < rest → rest ≤ 1 / 2 → left ≤ right + 2 * rest) :
    left ≤ right := by
  apply le_of_forall_pos_le_add
  intro gap positive
  have bound := each (min (1 / 2) (gap / 2)) (lt_min (by norm_num) (by linarith)) (min_le_left _ _)
  have small := min_le_right (1 / 2) (gap / 2)
  linarith

/-- The round trip time is the true one exactly when the system clock and the steady clock differ by a
multiple of 65536 s, up to what the tolerance leaves beside the rounding. -/
theorem trueRoundTrips_iff (offset : ℚ) : TrueRoundTrips offset ↔ ∃ period, Aligned offset period := by
  constructor
  · intro trips
    obtain ⟨period, exact⟩ := @aligned_at offset trips 0 0 0 0 (by decide) (by decide) (by norm_num) (by norm_num)
      (by norm_num)
    have near : |65536 * (offset - 65536 * period)| ≤ 65536 / 10000 := by simpa using exact
    refine ⟨period, ?_, ?_⟩
    · -- the stamp was nearly a unit later than it says, the delay nearly a unit longer
      apply le_of_rests
      intro rest positive half
      obtain ⟨other, late⟩ := @aligned_at offset trips 0 0 (1 - rest) (-(1 - rest)) (by decide) (by decide)
        (by norm_num) (by constructor <;> linarith) (by constructor <;> linarith)
      have same : other = period := by
        apply aligned_same ?_ near late
        rw [abs_le]
        constructor <;> norm_num <;> linarith
      rw [same, abs_le] at late
      norm_num at late
      linarith
    · -- the clock was read nearly a microsecond late and is cut by most of a unit, the delay is told too long
      apply le_of_rests
      intro rest positive half
      obtain ⟨other, early⟩ := @aligned_at offset trips 4776 (1 - rest) 0 (1 - rest) (by decide) (by decide)
        (by constructor <;> linarith) (by norm_num) (by constructor <;> linarith)
      have same : other = period := by
        apply aligned_same ?_ near early
        rw [abs_le]
        constructor <;> norm_num <;> linarith
      rw [same, abs_le] at early
      norm_num at early
      linarith
  · rintro ⟨period, aligned⟩
    exact trueRoundTrips_of_aligned aligned

/-- The system clock shows 1700000000 s when the steady clock reads 1000 s: a round trip of 50 ms is reported as
zero. -/
theorem bootClock_not_true :
    middleNtp 1700000000 ≠ 0 ∧ steadyUs 1699999000 (1700000000 + 0 + 1 / 20) = 1000050000 ∧
      (({} : NetworkQualityEstimator).onReceiverReport 1000050000 0 0 (middleNtp 1700000000) 0).remoteReport.map
        RemoteReport.rttMs = some 0 := by
  decide +kernel

end WeakNetVideo
