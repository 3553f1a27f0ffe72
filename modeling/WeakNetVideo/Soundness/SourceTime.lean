import Mathlib.Algebra.Order.Field.Basic
import Mathlib.Tactic.Linarith
import Mathlib.Tactic.Ring
import WeakNetVideo.Library.Pacing
import WeakNetVideo.Model.VideoFileReader

/-! # The time of the source

Frames are picked against marks that are a tick of the profile apart, and every frame that goes out lasts a tick.
So output keeps the time of the source exactly when the source has a frame of its own for every tick; a slower
source is sped up.
-/

namespace WeakNetVideo

open Pacing

/-- A file whose frames all have timestamps, in ascending order. -/
structure SourceStream where
  timeBaseNum : ℤ
  timeBaseDen : ℤ
  timestamps : List ℤ
  denPos : 0 < timeBaseDen
  ascending : (timestamps.map fun t : ℤ => (t : ℚ) * (timeBaseNum : ℚ) / (timeBaseDen : ℚ)).Pairwise (· ≤ ·)

namespace SourceStream

/-- The frames as the decoder returns them. -/
def frames (stream : SourceStream) : List DecodedFrame := stream.timestamps.map fun t => ⟨some t⟩

/-- The source time of a frame. -/
def time (stream : SourceStream) (decodedFrame : DecodedFrame) : ℚ :=
  (decodedFrame.bestEffortTimestamp.getD 0 : ℤ) * (stream.timeBaseNum : ℚ) / (stream.timeBaseDen : ℚ)

/-- The source times of all frames. -/
def times (stream : SourceStream) : List ℚ := stream.frames.map stream.time

theorem times_sorted (stream : SourceStream) : stream.times.Pairwise (· ≤ ·) := by
  rw [times, frames, List.map_map]
  exact stream.ascending

/-- What calls of `next_frame` under one profile return of a file that has just been opened. -/
def returned (stream : SourceStream) (reader : TimedFileReader) (encoder : FrameEncoder) (profile : VideoProfile)
    (forces : List Bool) : List Transcoded :=
  (reader.resetTimed stream.timeBaseNum stream.timeBaseDen).nextTimedFrames encoder profile stream.frames forces

end SourceStream

/-- The time that the sending loop advances over some frames. -/
def rtpSeconds (sent : List Transcoded) : ℚ :=
  ((sent.map fun transcoded => transcoded.frame.duration90khz.toNat).sum : ℕ) / 90000

/-- One tick of the profile, and a tenth of a millisecond. -/
def tolerance (fps : ℤ) : ℚ := 1 / (fps : ℚ) + 1 / 10000

/-- At every frame that is returned, the time that was advanced over the earlier ones is the source time since
the first one, but for the tolerance. -/
def KeepsTime (stream : SourceStream) (reader : TimedFileReader) (encoder : FrameEncoder)
    (profile : VideoProfile) : Prop :=
  ∀ forces before transcoded after, stream.returned reader encoder profile forces = before ++ transcoded :: after →
    ∀ first ∈ (stream.returned reader encoder profile forces).head?,
      |rtpSeconds before - (stream.time transcoded.source - stream.time first.source)| ≤ tolerance profile.fps

/-- For every tick that the source goes past, it has frames in the windows of that tick and all earlier ones, a
different one for each. -/
def FrameForEachTick (fps : ℤ) (times : List ℚ) : Prop :=
  ∀ first ∈ times.head?, ∀ k : ℕ, (∃ t ∈ times, first + k / fps + tolerance fps < t) →
    ∃ chosen, chosen.Sublist times ∧ chosen.length = k + 1 ∧
      Along (fun i t => first + i / fps - 1 / 10000 ≤ t ∧ t ≤ first + i / fps + tolerance fps) chosen

/-- The frames that are more than a tick before the zero of the source. -/
def lead (fps : ℤ) (times : List ℚ) : List ℚ := times.takeWhile fun t => decide (t + 1 / (fps : ℚ) < 0)

/-- The frames behind them. -/
def rest (fps : ℤ) (times : List ℚ) : List ℚ := times.dropWhile fun t => decide (t + 1 / (fps : ℚ) < 0)

/-- The leading frames are a tick apart, but for the tolerance. -/
def LeadInTime (fps : ℤ) (times : List ℚ) : Prop :=
  ∀ first ∈ times.head?, Along (fun k t => |(k : ℚ) / fps - (t - first)| ≤ tolerance fps) (lead fps times)

/-- No choice of frames behind the lead, each at its tick from the first of them or later, is too early for the
ticks from the first frame of all, and each can be bettered by one that is not too late. -/
def RestInTime (fps : ℤ) (times : List ℚ) : Prop :=
  ∀ first ∈ times.head?, ∀ base ∈ (rest fps times).head?,
    ∀ chosen, Choice (fun i => base + i / fps - 1 / 10000) (rest fps times) chosen →
      Along (fun i t => first + ((lead fps times).length + i : ℕ) / fps - tolerance fps ≤ t) chosen ∧
        ∃ better, Choice (fun i => base + i / fps - 1 / 10000) (rest fps times) better ∧
          better.length = chosen.length ∧
          Along (fun i t => t ≤ first + ((lead fps times).length + i : ℕ) / fps + tolerance fps) better

/-! ## The frames that are picked -/

/-- The source times that go out, of those that are left, when the next is due at a time. -/
def selected (fps : ℤ) : ℚ → List ℚ → List ℚ
  | _, [] => []
  | next, t :: later =>
    let due := if next < 0 then t else next
    if t + 1 / 10000 < due then selected fps due later else t :: selected fps (due + 1 / (fps : ℚ)) later

/-- From a due time on, marks are a tick apart. -/
private theorem selected_eq_pick {fps : ℤ} (positive : 0 < fps) {next : ℚ} (set : 0 ≤ next) (times : List ℚ) :
    selected fps next times = pick (fun i => next + i / fps - 1 / 10000) times := by
  induction times generalizing next with
  | nil => rfl
  | cons t later ih =>
    have tick : (0 : ℚ) ≤ 1 / fps := by positivity
    rw [selected, pick, if_neg (not_lt.mpr set)]
    have here : t + 1 / 10000 < next ↔ t < next + (0 : ℕ) / fps - 1 / 10000 := by
      rw [Nat.cast_zero, zero_div, add_zero, lt_sub_iff_add_lt]
    simp only [here]
    split_ifs
    · exact ih set
    · rw [ih (add_nonneg set tick)]
      congr 2
      funext i
      push_cast
      ring

/-- Until the due time is set for good, all frames go out. -/
private theorem selected_eq {fps : ℤ} (positive : 0 < fps) {next : ℚ} (unset : next < 0) (times : List ℚ) :
    selected fps next times = lead fps times ++
      pick (fun i => (rest fps times).headD 0 + i / fps - 1 / 10000) (rest fps times) := by
  induction times generalizing next with
  | nil => rfl
  | cons t later ih =>
    have starts : ¬t + 1 / 10000 < t := by norm_num
    rw [selected, if_pos unset]
    simp only [if_neg starts]
    by_cases early : t + 1 / (fps : ℚ) < 0
    · have taken : lead fps (t :: later) = t :: lead fps later := List.takeWhile_cons_of_pos (by simpa using early)
      have dropped : rest fps (t :: later) = rest fps later := List.dropWhile_cons_of_pos (by simpa using early)
      rw [taken, dropped, ih early, List.cons_append]
    · have taken : lead fps (t :: later) = [] := List.takeWhile_cons_of_neg (by simpa using early)
      have dropped : rest fps (t :: later) = t :: later := List.dropWhile_cons_of_neg (by simpa using early)
      have first : ¬t < t + (0 : ℕ) / fps - 1 / 10000 := by norm_num
      rw [taken, dropped, selected_eq_pick positive (not_lt.mp early), List.nil_append, List.headD_cons, pick,
        if_neg first]
      congr 2
      funext i
      push_cast
      ring

/-! ## What the reader picks -/

section Reader

variable {stream : SourceStream} {encoder : FrameEncoder} {profile : VideoProfile} {reader : TimedFileReader}
  {decodedFrame : DecodedFrame} {left : List DecodedFrame} {fps : ℤ} {forceKeyframe : Bool} {forces : List Bool}

/-- The reader has the stream open. -/
private structure Opened (stream : SourceStream) (reader : TimedFileReader) : Prop where
  num : reader.streamTimeBaseNum = stream.timeBaseNum
  den : reader.streamTimeBaseDen = stream.timeBaseDen

/-- Every frame that is left has a timestamp. -/
private def Timed (left : List DecodedFrame) : Prop := ∀ decodedFrame ∈ left, decodedFrame.bestEffortTimestamp.isSome

private theorem sourceSeconds_eq (opened : Opened stream reader) (timed : decodedFrame.bestEffortTimestamp.isSome) :
    reader.sourceSeconds decodedFrame = stream.time decodedFrame := by
  obtain ⟨t, there⟩ := Option.isSome_iff_exists.mp timed
  rw [TimedFileReader.sourceSeconds, SourceStream.time, there, opened.num, opened.den]
  simp [Option.filter, stream.denPos]

/-- The loop of `next_frame` picks the next of the source times. -/
private theorem transcodeNext_selected (onePacket : ∀ pts, (encoder.receive pts forceKeyframe).isSome)
    (opened : Opened stream reader) (timed : Timed left) :
    let result := TimedFileReader.transcodeNext encoder fps forceKeyframe reader left
    Opened stream result.1 ∧ Timed result.2.1 ∧
      selected fps reader.nextOutputSourceSeconds (left.map stream.time) =
        (result.2.2.map fun made => stream.time made.1).elim []
          (· :: selected fps result.1.nextOutputSourceSeconds (result.2.1.map stream.time)) := by
  induction left generalizing reader with
  | nil => exact ⟨opened, timed, rfl⟩
  | cons decodedFrame left ih =>
    obtain ⟨here, later⟩ := List.forall_mem_cons.mp timed
    have due : reader.dueSeconds decodedFrame = if reader.nextOutputSourceSeconds < 0 then stream.time decodedFrame
        else reader.nextOutputSourceSeconds := by
      rw [TimedFileReader.dueSeconds, sourceSeconds_eq opened here]
    simp only [List.map_cons, selected, TimedFileReader.transcodeNext, ← due]
    by_cases early : stream.time decodedFrame + 1 / 10000 < reader.dueSeconds decodedFrame
    · rw [TimedFileReader.shouldOutputDecodedFrame, sourceSeconds_eq opened here, if_pos early, if_pos early]
      obtain ⟨afterOpened, afterTimed, picked⟩ :=
        @ih { reader with nextOutputSourceSeconds := reader.dueSeconds decodedFrame } ⟨opened.num, opened.den⟩ later
      exact ⟨afterOpened, afterTimed, picked⟩
    · obtain ⟨packet, made⟩ := Option.isSome_iff_exists.mp (onePacket reader.encoderPts)
      rw [TimedFileReader.shouldOutputDecodedFrame, sourceSeconds_eq opened here, if_neg early, if_neg early]
      simp only [made]
      exact ⟨⟨opened.num, opened.den⟩, later, rfl⟩

/-- A call of `next_frame` picks the next of the source times. -/
private theorem nextTimedFrame_selected (onePacket : ∀ pts force, (encoder.receive pts force).isSome)
    (opened : Opened stream reader) (timed : Timed left) :
    let result := reader.nextTimedFrame encoder profile forceKeyframe left
    Opened stream result.1 ∧ Timed result.2.1 ∧ result.1.outdated profile = false ∧
      selected profile.fps (reader.configured profile).nextOutputSourceSeconds (left.map stream.time) =
        (result.2.2.map fun made => stream.time made.source).elim []
          (· :: selected profile.fps result.1.nextOutputSourceSeconds (result.2.1.map stream.time)) := by
  have configured : Opened stream (reader.configured profile) := by
    rw [TimedFileReader.configured]
    split_ifs
    · exact ⟨opened.num, opened.den⟩
    · exact opened
  have current : (reader.configured profile).outdated profile = false := by
    rw [TimedFileReader.configured]
    split_ifs with outdated
    · simp [TimedFileReader.configureTimed, VideoFileReader.configureEncoder, VideoFileReader.outdated]
    · exact Bool.eq_false_of_not_eq_true outdated
  obtain ⟨afterOpened, afterTimed, picked⟩ := @transcodeNext_selected stream encoder (reader.configured profile) left
    profile.fps (forceKeyframe || reader.outdated profile) (fun pts => onePacket pts _) configured timed
  refine ⟨afterOpened, afterTimed, ?_, ?_⟩
  · rw [← current, TimedFileReader.nextTimedFrame]
    exact congrArg (fun base => VideoFileReader.outdated base profile) TimedFileReader.transcodeNext_toVideoFileReader
  · rw [picked]
    simp only [TimedFileReader.nextTimedFrame, Option.map_map]
    rfl

/-- Calls of `next_frame` return the source times that are picked, one for each. -/
private theorem nextTimedFrames_selected (onePacket : ∀ pts force, (encoder.receive pts force).isSome)
    (opened : Opened stream reader) (timed : Timed left) :
    (reader.nextTimedFrames encoder profile left forces).map (fun made => stream.time made.source) =
      (selected profile.fps (reader.configured profile).nextOutputSourceSeconds (left.map stream.time)).take
        forces.length := by
  induction forces generalizing reader left with
  | nil => rfl
  | cons forceKeyframe forces ih =>
    obtain ⟨afterOpened, afterTimed, current, picked⟩ := @nextTimedFrame_selected stream encoder profile reader left
      forceKeyframe onePacket opened timed
    rw [picked, TimedFileReader.nextTimedFrames]
    generalize reader.nextTimedFrame encoder profile forceKeyframe left = result at *
    obtain ⟨after, behind, made⟩ := result
    cases made with
    | none => simp
    | some transcoded =>
      have same : after.configured profile = after := by
        rw [TimedFileReader.configured, current, if_neg Bool.false_ne_true]
      have onward := ih afterOpened afterTimed
      rw [same] at onward
      simp only [List.map_cons, onward, Option.map_some, Option.elim_some, List.length_cons, List.take_succ_cons]

/-- Every frame lasts a tick. -/
private theorem duration_nextTimedFrames :
    ∀ transcoded ∈ reader.nextTimedFrames encoder profile left forces,
      transcoded.frame.duration90khz = UInt32.ofNat (max 1 (Int.tdiv 90000 profile.fps)).toNat := by
  induction forces generalizing reader left with
  | nil => exact fun _ member => absurd member List.not_mem_nil
  | cons forceKeyframe forces ih =>
    rw [TimedFileReader.nextTimedFrames]
    split
    · exact fun _ member => absurd member List.not_mem_nil
    · rename_i after behind transcoded called
      rw [List.forall_mem_cons]
      refine ⟨?_, ih⟩
      rw [TimedFileReader.nextTimedFrame, Prod.mk.injEq, Prod.mk.injEq, Option.map_eq_some_iff] at called
      obtain ⟨-, -, made, -, rfl⟩ := called
      rfl

end Reader

/-! ## The ticks of the profiles -/

/-- On every profile of the ladder a frame lasts exactly a tick. -/
private theorem tick_profileForLevel (maxVideoKbps : ℤ) (level : ℕ) :
    0 < (profileForLevel maxVideoKbps level).fps ∧ (profileForLevel maxVideoKbps level).fps ≤ 30 ∧
      (UInt32.ofNat (max 1 (Int.tdiv 90000 (profileForLevel maxVideoKbps level).fps)).toNat).toNat *
        (profileForLevel maxVideoKbps level).fps = 90000 := by
  have each : ∀ i : Fin 5, 0 < kProfiles[i].fps ∧ kProfiles[i].fps ≤ 30 ∧
      (UInt32.ofNat (max 1 (Int.tdiv 90000 kProfiles[i].fps)).toNat).toNat * kProfiles[i].fps = 90000 := by decide
  exact each ⟨min level 4, by omega⟩

private theorem rtpSeconds_eq {fps : ℤ} {duration : ℕ} (positive : 0 < fps) (exactly : duration * fps = 90000)
    {sent : List Transcoded} (lasts : ∀ transcoded ∈ sent, transcoded.frame.duration90khz.toNat = duration) :
    rtpSeconds sent = (sent.length : ℚ) / fps := by
  have total : (sent.map fun transcoded => transcoded.frame.duration90khz.toNat).sum = sent.length * duration := by
    rw [List.map_congr_left lasts, List.map_const', List.sum_replicate_nat]
  have tick : (duration : ℚ) * fps = 90000 := by exact_mod_cast exactly
  have nonzero : (fps : ℚ) ≠ 0 := by exact_mod_cast ne_of_gt positive
  rw [rtpSeconds, total, div_eq_div_iff (by norm_num) nonzero]
  push_cast
  rw [mul_assoc, tick]

/-! ## Keeping time -/

section Main

variable {stream : SourceStream} {encoder : FrameEncoder} {profile : VideoProfile} {reader : TimedFileReader}

/-- The times that go out keep to the ticks from the first one. -/
private def InTime (fps : ℤ) (times : List ℚ) : Prop :=
  ∀ first ∈ times.head?, Along (fun k t => |(k : ℚ) / fps - (t - first)| ≤ tolerance fps) (selected fps (-1) times)

private theorem head_selected (fps : ℤ) (times : List ℚ) : (selected fps (-1) times).head? = times.head? := by
  cases times with
  | nil => rfl
  | cons t later =>
    have starts : ¬t + 1 / 10000 < t := by norm_num
    have due : (if (-1 : ℚ) < 0 then t else -1) = t := if_pos (by norm_num)
    simp only [selected, due, if_neg starts, List.head?_cons]

/-- What is returned are the times that go out. -/
private theorem returned_times (onePacket : ∀ pts force, (encoder.receive pts force).isSome) (forces : List Bool) :
    (stream.returned reader encoder profile forces).map (fun made => stream.time made.source) =
      (selected profile.fps (-1) stream.times).take forces.length := by
  have timed : Timed stream.frames := by
    intro decodedFrame member
    obtain ⟨t, -, rfl⟩ := List.mem_map.mp member
    rfl
  have outdated : (reader.resetTimed stream.timeBaseNum stream.timeBaseDen).outdated profile = true := rfl
  rw [SourceStream.returned, nextTimedFrames_selected onePacket ⟨rfl, rfl⟩ timed, TimedFileReader.configured,
    if_pos outdated]
  rfl

/-- Output keeps the time of the source exactly when the times that go out do. -/
private theorem keepsTime_iff_inTime (onePacket : ∀ pts force, (encoder.receive pts force).isSome) {duration : ℕ}
    (positive : 0 < profile.fps) (exactly : duration * profile.fps = 90000)
    (lasts : (UInt32.ofNat (max 1 (Int.tdiv 90000 profile.fps)).toNat).toNat = duration) :
    KeepsTime stream reader encoder profile ↔ InTime profile.fps stream.times := by
  have advanced {forces : List Bool} {before behind : List Transcoded}
      (whole : stream.returned reader encoder profile forces = before ++ behind) :
      rtpSeconds before = (before.length : ℚ) / profile.fps := by
    apply rtpSeconds_eq positive exactly
    intro transcoded member
    have inside : transcoded ∈ stream.returned reader encoder profile forces :=
      whole ▸ List.mem_append_left behind member
    rw [duration_nextTimedFrames transcoded inside, lasts]
  constructor
  · intro keeps first starts
    rw [along_iff_cut]
    intro before t after whole
    obtain ⟨forces, enough⟩ : ∃ forces : List Bool, forces.length = (selected profile.fps (-1) stream.times).length :=
      ⟨List.replicate _ false, List.length_replicate⟩
    have times := @returned_times stream encoder profile reader onePacket forces
    rw [enough, List.take_length] at times
    have cut := times
    rw [whole, List.map_eq_append_iff] at cut
    obtain ⟨sent, behind, returned, rfl, cut⟩ := cut
    obtain ⟨transcoded, later, rfl, rfl, -⟩ := List.map_eq_cons_iff.mp cut
    rw [← head_selected profile.fps, ← times, List.head?_map] at starts
    obtain ⟨shown, head, rfl⟩ := Option.mem_map.mp starts
    rw [List.length_map, ← advanced returned]
    exact keeps forces sent transcoded later returned shown head
  · rintro keeps forces sent transcoded later returned shown head
    have times := @returned_times stream encoder profile reader onePacket forces
    have starts : stream.time shown.source ∈ stream.times.head? := by
      have some_head := congrArg List.head? times
      rw [List.head?_map, Option.mem_def.mp head, Option.map_some, List.head?_take] at some_head
      split_ifs at some_head
      rw [← head_selected profile.fps]
      exact some_head.symm
    have whole := (List.take_append_drop forces.length (selected profile.fps (-1) stream.times)).symm
    rw [← times, returned, List.map_append, List.map_cons, List.append_assoc, List.cons_append] at whole
    have here := along_iff_cut.mp (keeps _ starts) _ _ _ whole
    rwa [List.length_map, ← advanced returned] at here

private theorem abs_le_tolerance_iff {fps : ℤ} {k : ℕ} {first t : ℚ} :
    |(k : ℚ) / fps - (t - first)| ≤ tolerance fps ↔
      first + (k : ℚ) / fps - tolerance fps ≤ t ∧ t ≤ first + (k : ℚ) / fps + tolerance fps := by
  rw [abs_le]
  constructor
  · exact fun ⟨low, high⟩ => ⟨by linarith, by linarith⟩
  · exact fun ⟨low, high⟩ => ⟨by linarith, by linarith⟩

/-- Times keep to the ticks exactly when the lead does and the frames behind it do. -/
private theorem inTime_iff {fps : ℤ} (positive : 0 < fps) {times : List ℚ} (sorted : times.Pairwise (· ≤ ·)) :
    InTime fps times ↔ LeadInTime fps times ∧ RestInTime fps times := by
  have restSorted : (rest fps times).Pairwise (· ≤ ·) := sorted.sublist (List.dropWhile_sublist _)
  have parts (first : ℚ) :
      Along (fun k t => |(k : ℚ) / fps - (t - first)| ≤ tolerance fps) (selected fps (-1) times) ↔
        Along (fun k t => |(k : ℚ) / fps - (t - first)| ≤ tolerance fps) (lead fps times) ∧
          ∀ base ∈ (rest fps times).head?,
            ∀ chosen, Choice (fun i => base + i / fps - 1 / 10000) (rest fps times) chosen →
              Along (fun i t => first + ((lead fps times).length + i : ℕ) / fps - tolerance fps ≤ t) chosen ∧
                ∃ better, Choice (fun i => base + i / fps - 1 / 10000) (rest fps times) better ∧
                  better.length = chosen.length ∧
                  Along (fun i t => t ≤ first + ((lead fps times).length + i : ℕ) / fps + tolerance fps) better := by
    rw [selected_eq positive (by norm_num), along_append]
    refine and_congr Iff.rfl ?_
    simp only [abs_le_tolerance_iff]
    cases behind : rest fps times with
    | nil => simp [pick]
    | cons base later =>
      rw [behind] at restSorted
      simp only [List.head?_cons, Option.mem_some_iff, forall_eq', List.headD_cons]
      exact pick_between_iff restSorted
  constructor
  · exact fun inTime => ⟨fun first starts => ((parts first).mp (inTime first starts)).1,
      fun first starts => ((parts first).mp (inTime first starts)).2⟩
  · rintro ⟨leads, follows⟩ first starts
    exact (parts first).mpr ⟨leads first starts, follows first starts⟩

/-- A source that does not begin more than a tick before zero has no lead. -/
private theorem selected_of_near {fps : ℤ} (positive : 0 < fps) {first : ℚ} (near : 0 ≤ first + 1 / (fps : ℚ))
    (later : List ℚ) :
    selected fps (-1) (first :: later) = pick (fun i => first + i / fps - 1 / 10000) (first :: later) := by
  have noLead : lead fps (first :: later) = [] := List.takeWhile_cons_of_neg (by simpa using near)
  have all : rest fps (first :: later) = first :: later := List.dropWhile_cons_of_neg (by simpa using near)
  rw [selected_eq positive neg_one_lt_zero, noLead, all, List.nil_append, List.headD_cons]

/-- Its frames keep to the ticks exactly when there is one for each. -/
private theorem inTime_iff_of_near {fps : ℤ} (positive : 0 < fps) {times : List ℚ} (sorted : times.Pairwise (· ≤ ·))
    {first : ℚ} (starts : first ∈ times.head?) (near : 0 ≤ first + 1 / (fps : ℚ)) :
    InTime fps times ↔ FrameForEachTick fps times := by
  obtain ⟨later, rfl⟩ := List.head?_eq_some_iff.mp starts
  have tick : (0 : ℚ) < 1 / fps := by positivity
  have due : Monotone fun i : ℕ => first + (i : ℚ) / fps - 1 / 10000 := fun i j le => by
    dsimp only
    gcongr
  have deadline : Monotone fun i : ℕ => first + (i : ℚ) / fps + tolerance fps := fun i j le => by
    dsimp only
    gcongr
  have apart (i : ℕ) : first + (i : ℚ) / fps - 1 / 10000 ≤ first + (i : ℚ) / fps + tolerance fps := by
    rw [tolerance]
    linarith
  have windows := pick_in_time_iff sorted due deadline apart
  rw [InTime, FrameForEachTick]
  simp only [List.head?_cons, Option.mem_some_iff, forall_eq', selected_of_near positive near, abs_le_tolerance_iff]
  rw [← windows]
  constructor
  · exact fun both => (along_and.mp both).2
  · intro inTime
    refine along_and.mpr ⟨(choice_pick _ _).above.imp fun i t _ above => ?_, inTime⟩
    rw [tolerance]
    linarith

/-- Under every profile of the ladder, output keeps the time of a source that begins at most a tick before zero
exactly when the source has a frame of its own for every tick that it goes past. In general the frames before that,
which all go out, have to keep to the ticks, and so have those behind them. -/
theorem keepsTime_iff (stream : SourceStream) (reader : TimedFileReader) (encoder : PromptEncoder)
    (maxVideoKbps : ℤ) (level : ℕ) :
    let profile := profileForLevel maxVideoKbps level
    (∀ first ∈ stream.times.head?, 0 ≤ first + 1 / (profile.fps : ℚ) →
        (KeepsTime stream reader encoder.toFrameEncoder profile ↔ FrameForEachTick profile.fps stream.times)) ∧
      (KeepsTime stream reader encoder.toFrameEncoder profile ↔
        LeadInTime profile.fps stream.times ∧ RestInTime profile.fps stream.times) := by
  intro profile
  obtain ⟨positive, -, exactly⟩ := tick_profileForLevel maxVideoKbps level
  have selected := @keepsTime_iff_inTime stream encoder.toFrameEncoder profile reader encoder.onePacket _ positive
    exactly rfl
  rw [selected]
  exact ⟨fun first starts near => inTime_iff_of_near positive stream.times_sorted starts near,
    inTime_iff positive stream.times_sorted⟩

/-- Frames that are at most a tick apart keep to the ticks. -/
private theorem inTime_of_dense {fps : ℤ} (positive : 0 < fps) (most : fps ≤ 30) {times : List ℚ}
    (near : ∀ first ∈ times.head?, 0 ≤ first + 1 / (fps : ℚ))
    (dense : times.IsChain fun t u => u ≤ t + 1 / (fps : ℚ)) : InTime fps times := by
  intro first starts
  obtain ⟨later, rfl⟩ := List.head?_eq_some_iff.mp starts
  rw [selected_of_near positive (near first starts)]
  have short : (1 / 10000 : ℚ) ≤ 1 / fps := by
    have frames : (0 : ℚ) < fps := by exact_mod_cast positive
    have few : (fps : ℚ) ≤ 30 := by exact_mod_cast most
    rw [div_le_div_iff₀ (by norm_num) frames]
    linarith
  have steps (i : ℕ) : first + ((i + 1 : ℕ) : ℚ) / fps - 1 / 10000 = first + (i : ℚ) / fps - 1 / 10000 + 1 / fps := by
    push_cast
    ring
  have behind := @pick_of_dense ℚ _ (fun i => first + (i : ℚ) / fps - 1 / 10000) (first :: later) _ _ _
    (first - 1 / 10000) steps (by norm_num) (List.isChain_cons_cons.mpr ⟨by linarith, dense⟩)
  refine (along_and.mpr ⟨(choice_pick _ _).above, behind⟩).imp fun i t _ both => ?_
  rw [abs_le_tolerance_iff, tolerance]
  exact ⟨by linarith [both.1], by linarith [both.2]⟩

/-- Output keeps the time of every source whose frames are at most a tick of the profile apart. -/
theorem keepsTime_of_dense (stream : SourceStream) (reader : TimedFileReader) (encoder : PromptEncoder)
    (maxVideoKbps : ℤ) (level : ℕ)
    (near : ∀ first ∈ stream.times.head?, 0 ≤ first + 1 / ((profileForLevel maxVideoKbps level).fps : ℚ))
    (dense : stream.times.IsChain fun t u => u ≤ t + 1 / ((profileForLevel maxVideoKbps level).fps : ℚ)) :
    KeepsTime stream reader encoder.toFrameEncoder (profileForLevel maxVideoKbps level) := by
  obtain ⟨positive, most, exactly⟩ := tick_profileForLevel maxVideoKbps level
  rw [keepsTime_iff_inTime encoder.onePacket positive exactly rfl]
  exact inTime_of_dense positive most near dense

end Main

/-- Ten frames a second, of which three are given. -/
private def tenPerSecond : SourceStream where
  timeBaseNum := 1
  timeBaseDen := 10
  timestamps := [0, 1, 2]
  denPos := by decide
  ascending := by decide +kernel

/-- An encoder that makes an empty packet of every frame. -/
private def emptyPackets : PromptEncoder where
  receive _ forceKeyframe := some ⟨[], forceKeyframe⟩
  forced := by rintro _ _ ⟨⟩; rfl
  onePacket _ _ := rfl

/-- Under the best profile, the second frame of ten a second goes out after a thirtieth of a second. -/
theorem tenPerSecond_sped_up :
    ¬KeepsTime tenPerSecond {} emptyPackets.toFrameEncoder (profileForLevel 2000 0) := by
  intro keeps
  have late := keeps [false, false] [⟨⟨some 0⟩, [], 3000, 1, true⟩] ⟨⟨some 1⟩, [], 3000, 1, false⟩ []
    (by decide +kernel) ⟨⟨some 0⟩, [], 3000, 1, true⟩ (by decide +kernel)
  revert late
  decide +kernel

end WeakNetVideo
