import WeakNetVideo.Model.Receiver
import Mathlib.Tactic.Common

/-! # What one step of the receiver can do

Each stage of `processReceiverPacket`, `drainCompleteFrames` and `receiverPoll` is described once:
which fields it keeps, which entries the buffer has afterwards and what it emits. Later proofs cite
these descriptions and do not unfold the stages.
-/

namespace WeakNetVideo

namespace Receiver

variable {rtc : Rtc} {r : Receiver} {atUs : ℤ} {metadata : FrameMetadata} {message : Message}

@[simp] theorem markUnsynchronized_frames (r : Receiver) : r.markUnsynchronized.frames = r.frames := rfl

@[simp] theorem markUnsynchronized_receiverEpoch (r : Receiver) :
    r.markUnsynchronized.receiverEpoch = r.receiverEpoch := rfl

@[simp] theorem markUnsynchronized_nextOutputFrameId (r : Receiver) :
    r.markUnsynchronized.nextOutputFrameId = r.nextOutputFrameId := rfl

@[simp] theorem markUnsynchronized_synchronized (r : Receiver) :
    r.markUnsynchronized.stats.synchronized = false := rfl

/-- Two states that agree on what no packet, drain or poll ever changes. -/
structure SameConfig (r s : Receiver) : Prop where
  timeout : s.recoveryTimeoutUs = r.recoveryTimeoutUs
  send : s.receiverSend = r.receiverSend

theorem SameConfig.refl (r : Receiver) : SameConfig r r := ⟨rfl, rfl⟩

theorem SameConfig.trans {r s t : Receiver} (first : SameConfig r s) (second : SameConfig s t) :
    SameConfig r t :=
  ⟨second.timeout.trans first.timeout, second.send.trans first.send⟩

/-- Two states that agree on the synchronization, the epoch, the cursor and the buffer. -/
structure SameState (r s : Receiver) : Prop where
  synchronized : s.stats.synchronized = r.stats.synchronized
  epoch : s.receiverEpoch = r.receiverEpoch
  cursor : s.nextOutputFrameId = r.nextOutputFrameId
  frames : s.frames = r.frames

/-! ## Epoch and cursor -/

/-- In the current epoch only an unset cursor moves. -/
theorem adoptEpoch_of_current (same : r.receiverEpoch = some metadata.epoch) :
    r.adoptEpoch metadata =
      { r with nextOutputFrameId := some (r.nextOutputFrameId.getD metadata.frameId) } := by
  obtain ⟨_, _, cursor, _⟩ := r
  cases cursor with
  | none => simp_all [adoptEpoch]
  | some next => simp_all [adoptEpoch]

theorem adoptEpoch_of_same (same : r.receiverEpoch = some metadata.epoch)
    (cursor : r.nextOutputFrameId.isSome = true) : r.adoptEpoch metadata = r := by
  obtain ⟨next, present⟩ := Option.isSome_iff_exists.mp cursor
  rw [adoptEpoch_of_current same, present, Option.getD_some, ← present]

theorem adoptEpoch_of_switch (switch : r.receiverEpoch ≠ some metadata.epoch) :
    r.adoptEpoch metadata = markUnsynchronized { r with
      frames := ∅
      receiverEpoch := some metadata.epoch
      nextOutputFrameId := some metadata.frameId } := by
  simp [adoptEpoch, switch]

/-- A packet's epoch is the current one, or it takes over. -/
theorem adoptEpoch_cases (r : Receiver) (metadata : FrameMetadata) :
    (r.receiverEpoch = some metadata.epoch ∧ r.adoptEpoch metadata =
        { r with nextOutputFrameId := some (r.nextOutputFrameId.getD metadata.frameId) }) ∨
      r.adoptEpoch metadata = markUnsynchronized { r with
        frames := ∅
        receiverEpoch := some metadata.epoch
        nextOutputFrameId := some metadata.frameId } := by
  rcases Decidable.em (r.receiverEpoch = some metadata.epoch) with same | switch
  · exact .inl ⟨same, adoptEpoch_of_current same⟩
  · exact .inr (adoptEpoch_of_switch switch)

theorem adoptEpoch_receiverEpoch (r : Receiver) (metadata : FrameMetadata) :
    (r.adoptEpoch metadata).receiverEpoch = some metadata.epoch := by
  rcases r.adoptEpoch_cases metadata with ⟨same, stays⟩ | clears
  · rw [stays]
    exact same
  · rw [clears]
    rfl

/-- The cursor is set from here on. -/
theorem adoptEpoch_cursor (r : Receiver) (metadata : FrameMetadata) :
    ∃ next, (r.adoptEpoch metadata).nextOutputFrameId = some next := by
  rcases r.adoptEpoch_cases metadata with ⟨_, stays⟩ | clears
  · exact ⟨_, by rw [stays]⟩
  · exact ⟨_, by rw [clears]; rfl⟩

theorem adoptEpoch_config (r : Receiver) (metadata : FrameMetadata) :
    SameConfig r (r.adoptEpoch metadata) := by
  rcases r.adoptEpoch_cases metadata with ⟨_, stays⟩ | clears
  · rw [stays]
    exact ⟨rfl, rfl⟩
  · rw [clears]
    exact ⟨rfl, rfl⟩

/-- An entry that survives the adoption was there before, under the same epoch. -/
theorem get_adoptEpoch {id : UInt32} {frame : FrameAssembly}
    (found : (r.adoptEpoch metadata).frames[id]? = some frame) :
    r.frames[id]? = some frame ∧ r.receiverEpoch = some metadata.epoch := by
  rcases r.adoptEpoch_cases metadata with ⟨same, stays⟩ | clears
  · rw [stays] at found
    exact ⟨found, same⟩
  · rw [clears] at found
    simp at found

/-! ## Placeholders -/

/-- The gap loop keeps the entries that were there and adds placeholders below its end only. -/
theorem get_fillGap {atUs : ℤ} {epoch : UInt16} {count : ℕ} {missing id : UInt32} {frames : FrameMap}
    {frame : FrameAssembly} (fits : missing.toNat + count < 2 ^ 32)
    (found : (fillGap atUs epoch count missing frames)[id]? = some frame) :
    frames[id]? = some frame ∨
      (frames[id]? = none ∧ frame = placeholder atUs epoch id ∧
        missing.toNat ≤ id.toNat ∧ id.toNat < missing.toNat + count) := by
  induction count generalizing missing frames with
  | zero => exact .inl found
  | succ count ih =>
    simp only [fillGap] at found
    split_ifs at found with room
    · have succ : (missing + 1).toNat = missing.toNat + 1 := by
        rw [UInt32.toNat_add, UInt32.toNat_one, Nat.mod_eq_of_lt (by omega)]
      have cases := ih (by omega) found
      rw [succ] at cases
      by_cases here : missing = id
      · subst here
        cases present : frames[missing]? with
        | some old =>
          rw [OrderedMap.insertIfNew_of_some present] at cases
          rcases cases with kept | ⟨absent, _⟩
          · exact .inl (present ▸ kept)
          · rw [present] at absent
            contradiction
        | none =>
          rw [OrderedMap.get_insertIfNew_of_none present] at cases
          rcases cases with kept | ⟨absent, _⟩
          · exact .inr ⟨rfl, (Option.some.inj kept).symm, by omega, by omega⟩
          · contradiction
      · rw [OrderedMap.get_insertIfNew_of_ne here] at cases
        rcases cases with kept | ⟨absent, same, lower, upper⟩
        · exact .inl kept
        · exact .inr ⟨absent, same, by omega, by omega⟩
    · exact .inl found

/-- Entries outside the gap stay as they are. -/
theorem get_fillGap_of_outside {atUs : ℤ} {epoch : UInt16} {count : ℕ} {missing id : UInt32}
    {frames : FrameMap} (fits : missing.toNat + count < 2 ^ 32)
    (outside : id.toNat < missing.toNat ∨ missing.toNat + count ≤ id.toNat) :
    (fillGap atUs epoch count missing frames)[id]? = frames[id]? := by
  induction count generalizing missing frames with
  | zero => rfl
  | succ count ih =>
    simp only [fillGap]
    split_ifs with room
    · have succ : (missing + 1).toNat = missing.toNat + 1 := by
        rw [UInt32.toNat_add, UInt32.toNat_one, Nat.mod_eq_of_lt (by omega)]
      have other : missing ≠ id := by
        rintro rfl
        omega
      rw [ih (by omega) (by omega), OrderedMap.get_insertIfNew_of_ne other]
    · rfl

/-- The gap loop never erases. -/
theorem get_fillGap_of_some {atUs : ℤ} {epoch : UInt16} {count : ℕ} {missing id : UInt32}
    {frames : FrameMap} {frame : FrameAssembly} (present : frames[id]? = some frame) :
    (fillGap atUs epoch count missing frames)[id]? = some frame := by
  induction count generalizing missing frames with
  | zero => exact present
  | succ count ih =>
    simp only [fillGap]
    split_ifs with room
    · apply ih
      by_cases here : missing = id
      · rw [here, OrderedMap.insertIfNew_of_some present]
        exact present
      · rw [OrderedMap.get_insertIfNew_of_ne here]
        exact present
    · exact present

/-- A gap that is already filled changes nothing. -/
theorem fillGap_of_present {atUs : ℤ} {epoch : UInt16} {count : ℕ} {missing : UInt32}
    {frames : FrameMap} (fits : missing.toNat + count < 2 ^ 32)
    (present : ∀ id : UInt32, missing.toNat ≤ id.toNat → id.toNat < missing.toNat + count →
      ∃ frame, frames[id]? = some frame) :
    fillGap atUs epoch count missing frames = frames := by
  induction count generalizing missing with
  | zero => rfl
  | succ count ih =>
    obtain ⟨frame, found⟩ := present missing (Nat.le_refl _) (by omega)
    have succ : (missing + 1).toNat = missing.toNat + 1 := by
      rw [UInt32.toNat_add, UInt32.toNat_one, Nat.mod_eq_of_lt (by omega)]
    simp only [fillGap, OrderedMap.insertIfNew_of_some found]
    split_ifs with room
    · exact ih (by omega) fun id lower upper => present id (by omega) (by omega)
    · rfl

theorem fillGap_of_full {atUs : ℤ} {epoch : UInt16} {count : ℕ} {missing : UInt32}
    {frames : FrameMap} (full : maxBufferedFrames ≤ frames.size) :
    fillGap atUs epoch count missing frames = frames := by
  cases count with
  | zero => rfl
  | succ count => simp only [fillGap, if_neg (Nat.not_lt.mpr full)]

theorem size_le_fillGap (atUs : ℤ) (epoch : UInt16) (count : ℕ) (missing : UInt32)
    (frames : FrameMap) : frames.size ≤ (fillGap atUs epoch count missing frames).size := by
  induction count generalizing missing frames with
  | zero => exact Nat.le_refl _
  | succ count ih =>
    simp only [fillGap]
    split_ifs with room
    · exact Nat.le_trans Std.ExtTreeMap.size_le_size_insertIfNew (ih _ _)
    · exact Nat.le_refl _

/-- Where there is room, a gap loop that adds nothing met no absent id. -/
theorem present_of_size_fillGap {atUs : ℤ} {epoch : UInt16} {count : ℕ} {missing : UInt32}
    {frames : FrameMap} (room : frames.size < maxBufferedFrames)
    (same : (fillGap atUs epoch count missing frames).size = frames.size)
    (fits : missing.toNat + count < 2 ^ 32) (id : UInt32) (lower : missing.toNat ≤ id.toNat)
    (upper : id.toNat < missing.toNat + count) : ∃ frame, frames[id]? = some frame := by
  induction count generalizing missing with
  | zero => omega
  | succ count ih =>
    simp only [fillGap, if_pos room] at same
    cases found : frames[missing]? with
    | none =>
      have grown : (frames.insertIfNew missing (placeholder atUs epoch missing)).size =
          frames.size + 1 := by
        rw [Std.ExtTreeMap.size_insertIfNew, if_neg]
        rw [Std.ExtTreeMap.mem_iff_isSome_getElem?, found]
        exact Bool.false_ne_true
      have least := size_le_fillGap atUs epoch count (missing + 1)
        (frames.insertIfNew missing (placeholder atUs epoch missing))
      omega
    | some frame =>
      rw [OrderedMap.insertIfNew_of_some found] at same
      have succ : (missing + 1).toNat = missing.toNat + 1 := by
        rw [UInt32.toNat_add, UInt32.toNat_one, Nat.mod_eq_of_lt (by omega)]
      by_cases here : missing.toNat = id.toNat
      · exact ⟨frame, by rw [← UInt32.toNat_inj.mp here, found]⟩
      · exact ih same (by omega) (by omega) (by omega)

theorem size_fillGap_le {atUs : ℤ} {epoch : UInt16} {count : ℕ} {missing : UInt32}
    {frames : FrameMap} (bounded : frames.size ≤ maxBufferedFrames) :
    (fillGap atUs epoch count missing frames).size ≤ maxBufferedFrames := by
  induction count generalizing missing frames with
  | zero => exact bounded
  | succ count ih =>
    simp only [fillGap]
    split_ifs with room
    · apply ih
      have grown := Std.ExtTreeMap.size_insertIfNew_le (t := frames) (k := missing)
        (v := placeholder atUs epoch missing)
      omega
    · exact bounded

private theorem gap_fits {next id : UInt32} (below : next < id) :
    next.toNat + (id - next).toNat = id.toNat := by
  have order : next.toNat < id.toNat := UInt32.lt_iff_toNat_lt.mp below
  rw [UInt32.toNat_sub_of_le _ _ (UInt32.le_iff_toNat_le.mpr (by omega))]
  omega

/-- Placeholders change nothing but the buffer. -/
theorem withPlaceholders_eq (r : Receiver) (atUs : ℤ) (metadata : FrameMetadata) :
    ∃ frames, r.withPlaceholders atUs metadata = { r with frames := frames } := by
  unfold withPlaceholders
  split
  · exact ⟨r.frames, rfl⟩
  · split_ifs
    · exact ⟨_, rfl⟩
    · exact ⟨r.frames, rfl⟩

/-- An entry behind the placeholders was there before or is a placeholder of the gap. -/
theorem get_withPlaceholders {id : UInt32} {frame : FrameAssembly}
    (found : (r.withPlaceholders atUs metadata).frames[id]? = some frame) :
    r.frames[id]? = some frame ∨
      (r.frames[id]? = none ∧ frame = placeholder atUs metadata.epoch id ∧ id < metadata.frameId ∧
        ∃ next, r.nextOutputFrameId = some next ∧ next ≤ id) := by
  unfold withPlaceholders at found
  split at found
  · exact .inl found
  · next next cursor =>
    split_ifs at found with beyond
    · have fits := gap_fits beyond
      have last := metadata.frameId.toNat_lt
      rcases get_fillGap (by omega) found with kept | ⟨absent, same, lower, upper⟩
      · exact .inl kept
      · exact .inr ⟨absent, same, UInt32.lt_iff_toNat_lt.mpr (by omega), next, cursor,
          UInt32.le_iff_toNat_le.mpr lower⟩
    · exact .inl found

/-- The packet's own frame is not part of the gap. -/
theorem get_withPlaceholders_self :
    (r.withPlaceholders atUs metadata).frames[metadata.frameId]? = r.frames[metadata.frameId]? := by
  unfold withPlaceholders
  split
  · rfl
  · next next cursor =>
    split_ifs with beyond
    · have fits := gap_fits beyond
      have last := metadata.frameId.toNat_lt
      exact get_fillGap_of_outside (by omega) (.inr (by omega))
    · rfl

theorem get_withPlaceholders_of_some {id : UInt32} {frame : FrameAssembly}
    (present : r.frames[id]? = some frame) :
    (r.withPlaceholders atUs metadata).frames[id]? = some frame := by
  unfold withPlaceholders
  split
  · exact present
  · split_ifs
    · exact get_fillGap_of_some present
    · exact present

/-- Nothing is added when every id from the cursor up to the packet's frame is buffered. -/
theorem withPlaceholders_of_present {next : UInt32} (cursor : r.nextOutputFrameId = some next)
    (present : ∀ id : UInt32, next ≤ id → id < metadata.frameId → ∃ frame, r.frames[id]? = some frame) :
    r.withPlaceholders atUs metadata = r := by
  unfold withPlaceholders
  simp only [cursor]
  split_ifs with beyond
  · have fits := gap_fits beyond
    have last := metadata.frameId.toNat_lt
    have same : fillGap atUs metadata.epoch (metadata.frameId - next).toNat next r.frames = r.frames :=
      fillGap_of_present (by omega) fun id lower upper =>
        present id (UInt32.le_iff_toNat_le.mpr lower) (UInt32.lt_iff_toNat_lt.mpr (by omega))
    rw [same, ← cursor]
  · rfl

/-- A full buffer takes no placeholders. -/
theorem withPlaceholders_of_full (full : maxBufferedFrames ≤ r.frames.size) :
    r.withPlaceholders atUs metadata = r := by
  unfold withPlaceholders
  split
  · rfl
  · split_ifs
    · rw [fillGap_of_full full]
    · rfl

/-- Where there is room, placeholders that add nothing found every id buffered. -/
theorem present_of_size_withPlaceholders {next : UInt32} (cursor : r.nextOutputFrameId = some next)
    (room : r.frames.size < maxBufferedFrames)
    (same : (r.withPlaceholders atUs metadata).frames.size = r.frames.size) (id : UInt32)
    (lower : next ≤ id) (upper : id < metadata.frameId) : ∃ frame, r.frames[id]? = some frame := by
  simp only [withPlaceholders, cursor] at same
  have beyond : next < metadata.frameId := UInt32.lt_of_le_of_lt lower upper
  rw [if_pos beyond] at same
  have fits := gap_fits beyond
  have last := metadata.frameId.toNat_lt
  have above := UInt32.le_iff_toNat_le.mp lower
  have under := UInt32.lt_iff_toNat_lt.mp upper
  exact present_of_size_fillGap room same (by omega) id above (by omega)

theorem size_withPlaceholders_le (bounded : r.frames.size ≤ maxBufferedFrames) :
    (r.withPlaceholders atUs metadata).frames.size ≤ maxBufferedFrames := by
  unfold withPlaceholders
  split
  · exact bounded
  · split_ifs
    · exact size_fillGap_le bounded
    · exact bounded

/-- Where the keys before and within the gap are few, the gap loop fills every id of the gap. -/
private theorem exists_get_fillGap {atUs : ℤ} {epoch : UInt16} {count : ℕ} {missing id : UInt32}
    {frames : FrameMap} {keys : List UInt32} (few : keys.length < maxBufferedFrames)
    (fits : missing.toNat + count < 2 ^ 32)
    (inside : ∀ (other : UInt32) (frame : FrameAssembly), frames[other]? = some frame → other ∈ keys)
    (gap : ∀ other : UInt32, missing.toNat ≤ other.toNat → other.toNat < missing.toNat + count →
      other ∈ keys) (lower : missing.toNat ≤ id.toNat) (upper : id.toNat < missing.toNat + count) :
    ∃ frame, (fillGap atUs epoch count missing frames)[id]? = some frame := by
  induction count generalizing missing frames with
  | zero => omega
  | succ count ih =>
    have room : frames.size < maxBufferedFrames :=
      Nat.lt_of_le_of_lt (OrderedMap.size_le_of_keys keys inside) few
    have succ : (missing + 1).toNat = missing.toNat + 1 := by
      rw [UInt32.toNat_add, UInt32.toNat_one, Nat.mod_eq_of_lt (by omega)]
    have own : ∃ frame, (frames.insertIfNew missing (placeholder atUs epoch missing))[missing]? =
        some frame := by
      cases found : frames[missing]? with
      | none => exact ⟨_, OrderedMap.get_insertIfNew_of_none found⟩
      | some frame => exact ⟨frame, by rw [OrderedMap.insertIfNew_of_some found, found]⟩
    simp only [fillGap, if_pos room]
    by_cases here : missing = id
    · obtain ⟨frame, found⟩ := own
      exact ⟨frame, get_fillGap_of_some (here ▸ found)⟩
    · have apart : missing.toNat ≠ id.toNat := fun same => here (UInt32.toNat_inj.mp same)
      refine ih (by omega) (fun other frame found => ?_)
        (fun other low high => gap other (by omega) (by omega)) (by omega) (by omega)
      by_cases first : missing = other
      · subst first
        exact gap missing (Nat.le_refl _) (by omega)
      · rw [OrderedMap.get_insertIfNew_of_ne first] at found
        exact inside other frame found

/-- Where the keys of the buffer and of the gap are few, every id of the gap is buffered afterwards. -/
theorem exists_get_withPlaceholders {next id : UInt32} {keys : List UInt32}
    (few : keys.length < maxBufferedFrames) (cursor : r.nextOutputFrameId = some next)
    (inside : ∀ (other : UInt32) (frame : FrameAssembly), r.frames[other]? = some frame → other ∈ keys)
    (gap : ∀ other : UInt32, next ≤ other → other < metadata.frameId → other ∈ keys)
    (lower : next ≤ id) (upper : id < metadata.frameId) :
    ∃ frame, (r.withPlaceholders atUs metadata).frames[id]? = some frame := by
  have beyond : next < metadata.frameId := UInt32.lt_of_le_of_lt lower upper
  have fits := gap_fits beyond
  have last := metadata.frameId.toNat_lt
  have above := UInt32.le_iff_toNat_le.mp lower
  have under := UInt32.lt_iff_toNat_lt.mp upper
  simp only [withPlaceholders, cursor, if_pos beyond]
  exact exists_get_fillGap few (by omega) inside (fun other low high =>
    gap other (UInt32.le_iff_toNat_le.mpr low) (UInt32.lt_iff_toNat_lt.mpr (by omega))) above (by omega)

/-! ## Eviction -/

theorem evict_of_fits (fits : r.frames.size ≤ maxBufferedFrames) (fuel : ℕ) : evict fuel r = r := by
  cases fuel with
  | zero => rfl
  | succ fuel => simp only [evict, if_neg (Nat.not_lt.mpr fits)]

/-- Eviction erases entries and otherwise only costs the synchronization. -/
theorem evict_spec (fuel : ℕ) (r : Receiver) :
    (evict fuel r).receiverEpoch = r.receiverEpoch ∧
      (evict fuel r).nextOutputFrameId = r.nextOutputFrameId ∧ SameConfig r (evict fuel r) ∧
      ∀ (id : UInt32) (frame : FrameAssembly), (evict fuel r).frames[id]? = some frame →
        r.frames[id]? = some frame := by
  induction fuel generalizing r with
  | zero => exact ⟨rfl, rfl, .refl r, fun _ _ found => found⟩
  | succ fuel ih =>
    simp only [evict]
    split_ifs
    · obtain ⟨epoch, cursor, config, entries⟩ :=
        ih (markUnsynchronized { r with frames := OrderedMap.eraseFirst r.frames })
      exact ⟨epoch, cursor, ⟨config.timeout, config.send⟩, fun id frame found =>
        OrderedMap.get_of_get_eraseFirst (entries id frame found)⟩
    · exact ⟨rfl, rfl, .refl r, fun _ _ found => found⟩

private theorem evict_unsynchronized (fuel : ℕ) (lost : r.stats.synchronized = false) :
    (evict fuel r).stats.synchronized = false := by
  induction fuel generalizing r with
  | zero => exact lost
  | succ fuel ih =>
    simp only [evict]
    split_ifs
    · exact ih rfl
    · exact lost

/-- A receiver that is synchronized after the loop has evicted nothing. -/
theorem evict_of_synchronized {fuel : ℕ} (kept : (evict fuel r).stats.synchronized = true) :
    evict fuel r = r := by
  cases fuel with
  | zero => rfl
  | succ fuel =>
    simp only [evict] at kept ⊢
    split_ifs at kept ⊢
    · rw [evict_unsynchronized fuel rfl] at kept
      contradiction
    · rfl

theorem size_evict {fuel : ℕ} (enough : r.frames.size ≤ fuel + maxBufferedFrames) :
    (evict fuel r).frames.size ≤ maxBufferedFrames := by
  induction fuel generalizing r with
  | zero => exact Nat.le_trans enough (Nat.le_of_eq (Nat.zero_add _))
  | succ fuel ih =>
    simp only [evict]
    split_ifs with crowded
    · apply ih
      have less := OrderedMap.size_eraseFirst (m := r.frames) (by omega)
      simp only [markUnsynchronized_frames]
      omega
    · omega

/-! ## Storing -/

/-- The assembly a packet is checked against. -/
def assemblyFor (r : Receiver) (atUs : ℤ) (metadata : FrameMetadata) (message : Message) :
    FrameAssembly :=
  openAssembly atUs metadata message (r.frames[metadata.frameId]?.getD {})

/-- The packet agrees with its assembly. -/
def Matches (metadata : FrameMetadata) (frame : FrameAssembly) : Prop :=
  frame.packetCount = metadata.packetCount ∧ frame.epoch = metadata.epoch ∧
    frame.keyframe = metadata.keyframe

/-- An assembly that was seen before is taken as it is. -/
theorem assemblyFor_of_get {frame : FrameAssembly} (found : r.frames[metadata.frameId]? = some frame)
    (seen : frame.firstSeenUs ≠ 0) : r.assemblyFor atUs metadata message = frame := by
  rw [assemblyFor, found, Option.getD_some, openAssembly, if_neg seen]

theorem assemblyFor_of_none (absent : r.frames[metadata.frameId]? = none) :
    r.assemblyFor atUs metadata message = openAssembly atUs metadata message {} := by
  rw [assemblyFor, absent, Option.getD_none]

/-- The assembly is not one of the gap. -/
theorem assemblyFor_withPlaceholders : (r.withPlaceholders atUs metadata).assemblyFor atUs metadata message =
    r.assemblyFor atUs metadata message := by
  rw [assemblyFor, assemblyFor, get_withPlaceholders_self]

theorem storePacket_of_mismatch
    (mismatch : ¬Matches metadata (r.assemblyFor atUs metadata message)) :
    r.storePacket atUs metadata message =
      markUnsynchronized { r with frames := r.frames.erase metadata.frameId } := by
  simp only [Matches, not_and_or] at mismatch
  simp only [storePacket]
  exact if_pos mismatch

theorem storePacket_of_matches (agrees : Matches metadata (r.assemblyFor atUs metadata message)) :
    ∃ stored, stored = { r with
        frames := r.frames.insert metadata.frameId
          (fillSlot metadata message (r.assemblyFor atUs metadata message)) } ∧
      r.storePacket atUs metadata message = evict stored.frames.size stored := by
  refine ⟨_, rfl, ?_⟩
  simp only [storePacket]
  apply if_neg
  rintro (count | epoch | keyframe)
  · exact count agrees.1
  · exact epoch agrees.2.1
  · exact keyframe agrees.2.2

/-- A packet is stored and what is too much is evicted, or its assembly is dropped. -/
theorem storePacket_cases (r : Receiver) (atUs : ℤ) (metadata : FrameMetadata) (message : Message) :
    (Matches metadata (r.assemblyFor atUs metadata message) ∧ ∃ stored, stored = { r with
        frames := r.frames.insert metadata.frameId
          (fillSlot metadata message (r.assemblyFor atUs metadata message)) } ∧
      r.storePacket atUs metadata message = evict stored.frames.size stored) ∨
    (¬Matches metadata (r.assemblyFor atUs metadata message) ∧
      r.storePacket atUs metadata message =
        markUnsynchronized { r with frames := r.frames.erase metadata.frameId }) := by
  apply (Classical.em (Matches metadata (r.assemblyFor atUs metadata message))).imp
  · exact fun agrees => ⟨agrees, storePacket_of_matches agrees⟩
  · exact fun mismatch => ⟨mismatch, storePacket_of_mismatch mismatch⟩

/-- Storing touches the buffer and the synchronization only, and no entry but the packet's own. -/
theorem storePacket_spec (r : Receiver) (atUs : ℤ) (metadata : FrameMetadata) (message : Message) :
    (r.storePacket atUs metadata message).receiverEpoch = r.receiverEpoch ∧
      (r.storePacket atUs metadata message).nextOutputFrameId = r.nextOutputFrameId ∧
      SameConfig r (r.storePacket atUs metadata message) ∧
      ∀ (id : UInt32) (frame : FrameAssembly), (r.storePacket atUs metadata message).frames[id]? = some frame →
        (id ≠ metadata.frameId ∧ r.frames[id]? = some frame) ∨
          (id = metadata.frameId ∧ Matches metadata (r.assemblyFor atUs metadata message) ∧
            frame = fillSlot metadata message (r.assemblyFor atUs metadata message)) := by
  rcases r.storePacket_cases atUs metadata message with ⟨agrees, stored, stored_eq, step⟩ | ⟨_, dropped⟩
  · obtain ⟨epoch, cursor, config, entries⟩ := evict_spec stored.frames.size stored
    rw [step]
    refine ⟨by rw [epoch, stored_eq], by rw [cursor, stored_eq], .trans ?_ config, ?_⟩
    · rw [stored_eq]
      exact ⟨rfl, rfl⟩
    · intro id frame found
      have inserted := entries id frame found
      rw [stored_eq] at inserted
      by_cases here : metadata.frameId = id
      · subst here
        rw [Std.ExtTreeMap.getElem?_insert_self] at inserted
        exact .inr ⟨rfl, agrees, (Option.some.inj inserted).symm⟩
      · rw [OrderedMap.get_insert_of_ne here] at inserted
        exact .inl ⟨fun same => here same.symm, inserted⟩
  · rw [dropped]
    refine ⟨rfl, rfl, ⟨rfl, rfl⟩, fun id frame found => ?_⟩
    obtain ⟨before, other⟩ := OrderedMap.get_of_get_erase found
    exact .inl ⟨fun same => other same.symm, before⟩

theorem size_storePacket_le (bounded : r.frames.size ≤ maxBufferedFrames) :
    (r.storePacket atUs metadata message).frames.size ≤ maxBufferedFrames := by
  rcases r.storePacket_cases atUs metadata message with ⟨agrees, stored, stored_eq, step⟩ | ⟨_, dropped⟩
  · rw [step]
    exact size_evict (Nat.le_add_right _ _)
  · rw [dropped, markUnsynchronized_frames]
    exact Nat.le_trans Std.ExtTreeMap.size_erase_le bounded

/-- Where the synchronization survives, the packet was stored and nothing was evicted. -/
theorem storePacket_synchronized
    (kept : (r.storePacket atUs metadata message).stats.synchronized = true) :
    Matches metadata (r.assemblyFor atUs metadata message) ∧
      r.storePacket atUs metadata message = { r with
        frames := r.frames.insert metadata.frameId
          (fillSlot metadata message (r.assemblyFor atUs metadata message)) } := by
  rcases r.storePacket_cases atUs metadata message with ⟨agrees, stored, stored_eq, step⟩ | ⟨_, dropped⟩
  · rw [step] at kept ⊢
    exact ⟨agrees, (evict_of_synchronized kept).trans stored_eq⟩
  · rw [dropped, markUnsynchronized_synchronized] at kept
    contradiction

/-! ## Processing a packet -/

/-- The stages a packet with valid metadata goes through. -/
theorem processReceiverPacket_of_valid (valid : validMetadata rtc message = some metadata) :
    r.processReceiverPacket rtc atUs message =
      ((r.adoptEpoch metadata).withPlaceholders atUs metadata).storePacket atUs metadata message := by
  simp only [processReceiverPacket, valid]

theorem processReceiverPacket_of_invalid (invalid : validMetadata rtc message = none) :
    r.processReceiverPacket rtc atUs message = r.markUnsynchronized := by
  simp only [processReceiverPacket, invalid]

theorem validMetadata_some (valid : validMetadata rtc message = some metadata) :
    readFrameMetadata rtc message = some metadata ∧ metadata.packetCount ≠ 0 ∧
      metadata.packetIndex < metadata.packetCount := by
  have parts := Option.filter_eq_some_iff.mp valid
  simpa using parts

/-- The origin of every entry after a packet: an old entry, a placeholder of the gap, or the assembly
of the packet itself. -/
theorem get_processReceiverPacket {id : UInt32} {frame : FrameAssembly}
    (valid : validMetadata rtc message = some metadata)
    (found : (r.processReceiverPacket rtc atUs message).frames[id]? = some frame) :
    ((r.adoptEpoch metadata).frames[id]? = some frame ∧ id ≠ metadata.frameId) ∨
      (frame = placeholder atUs metadata.epoch id ∧ id < metadata.frameId) ∨
      (id = metadata.frameId ∧
        Matches metadata ((r.adoptEpoch metadata).assemblyFor atUs metadata message) ∧
        frame = fillSlot metadata message
          ((r.adoptEpoch metadata).assemblyFor atUs metadata message)) := by
  rw [processReceiverPacket_of_valid valid] at found
  rcases (storePacket_spec _ atUs metadata message).2.2.2 id frame found with
    ⟨other, kept⟩ | ⟨here, agrees, same⟩
  · rcases get_withPlaceholders kept with old | ⟨_, same, below, _⟩
    · exact .inl ⟨old, other⟩
    · exact .inr (.inl ⟨same, below⟩)
  · rw [assemblyFor_withPlaceholders] at agrees same
    exact .inr (.inr ⟨here, agrees, same⟩)

theorem processReceiverPacket_config (rtc : Rtc) (r : Receiver) (atUs : ℤ) (message : Message) :
    SameConfig r (r.processReceiverPacket rtc atUs message) := by
  cases valid : validMetadata rtc message with
  | none => rw [processReceiverPacket_of_invalid valid]; exact ⟨rfl, rfl⟩
  | some metadata =>
    rw [processReceiverPacket_of_valid valid]
    obtain ⟨frames, gap⟩ := withPlaceholders_eq (r.adoptEpoch metadata) atUs metadata
    refine .trans (adoptEpoch_config r metadata) (.trans ?_ (storePacket_spec _ _ _ _).2.2.1)
    rw [gap]
    exact ⟨rfl, rfl⟩

theorem processReceiverPacket_receiverEpoch (valid : validMetadata rtc message = some metadata) :
    (r.processReceiverPacket rtc atUs message).receiverEpoch = some metadata.epoch := by
  obtain ⟨frames, gap⟩ := withPlaceholders_eq (r.adoptEpoch metadata) atUs metadata
  rw [processReceiverPacket_of_valid valid, (storePacket_spec _ _ _ _).1, gap]
  exact adoptEpoch_receiverEpoch r metadata

theorem processReceiverPacket_cursor (valid : validMetadata rtc message = some metadata) :
    (r.processReceiverPacket rtc atUs message).nextOutputFrameId =
      (r.adoptEpoch metadata).nextOutputFrameId := by
  obtain ⟨frames, gap⟩ := withPlaceholders_eq (r.adoptEpoch metadata) atUs metadata
  rw [processReceiverPacket_of_valid valid, (storePacket_spec _ _ _ _).2.1, gap]

/-- A packet that leaves the receiver synchronized found it synchronized, in the packet's epoch. -/
theorem processReceiverPacket_synchronized
    (kept : (r.processReceiverPacket rtc atUs message).stats.synchronized = true) :
    r.stats.synchronized = true ∧
      ∃ metadata, validMetadata rtc message = some metadata ∧
        r.receiverEpoch = some metadata.epoch := by
  cases valid : validMetadata rtc message with
  | none =>
    rw [processReceiverPacket_of_invalid valid, markUnsynchronized_synchronized] at kept
    contradiction
  | some metadata =>
    rw [processReceiverPacket_of_valid valid] at kept
    obtain ⟨frames, gap⟩ := withPlaceholders_eq (r.adoptEpoch metadata) atUs metadata
    have before := congrArg (fun s => s.stats.synchronized) (storePacket_synchronized kept).2
    rw [kept, gap] at before
    change true = (r.adoptEpoch metadata).stats.synchronized at before
    rcases r.adoptEpoch_cases metadata with ⟨same, stays⟩ | clears
    · rw [stays] at before
      exact ⟨before.symm, metadata, rfl, same⟩
    · rw [clears] at before
      contradiction

theorem size_processReceiverPacket_le (bounded : r.frames.size ≤ maxBufferedFrames) :
    (r.processReceiverPacket rtc atUs message).frames.size ≤ maxBufferedFrames := by
  cases valid : validMetadata rtc message with
  | none => rw [processReceiverPacket_of_invalid valid]; exact bounded
  | some metadata =>
    rw [processReceiverPacket_of_valid valid]
    apply size_storePacket_le
    apply size_withPlaceholders_le
    rcases r.adoptEpoch_cases metadata with ⟨_, stays⟩ | clears
    · rw [stays]
      exact bounded
    · rw [clears, markUnsynchronized_frames, Std.ExtTreeMap.size_empty]
      exact Nat.zero_le _

end Receiver

end WeakNetVideo
